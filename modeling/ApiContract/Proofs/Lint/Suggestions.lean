import ApiContract.Proofs.Json.DistinctKeys
import ApiContract.Proofs.Json.Pointer
import ApiContract.Proofs.Lint.Coverage
import ApiContract.Proofs.Projection.PathTemplate
import Mathlib.Data.List.Infix

/-!
# Where suggestions lead

For a reference that leads nowhere the linter may suggest one to a component. That reference is
written from the name of the component and that of its section, but only the former is escaped.

## Main result

`Lint.suggestions_resolve_iff`, under every policy. What is suggested is always a reference that was
written for a component of the document. It leads to the component if the name of the section can
stand in a reference as it is (`Pointer.IsVerbatim`: no slash, and no tilde that reads as an
escape); and for any other name of a section there are documents in which the suggestion leads
nowhere. `suggestion_dangles_sharedDocument` is one that the linter has nothing else to say about.

## Proof

A reference to a component is cut at the slashes of the section's name too
(`segments?_componentPointer`). If there are none, and no escape, it is the reference for the path
through the two names, and leads where that path leads. For the other direction, a document with one
section of that name and a reference that leads nowhere is enough (`sectionDocument`): there is one
candidate, so it is suggested, and whoever arrives at it has come by the name of the section alone
(`isVerbatim_of_resolve?`).

## What is assumed

Documents have distinct keys, as those have that were read. Which of several components is suggested
is decided by how alike the names are; it plays no part here, since the best candidate is one of the
candidates (`mem_of_foldl_step`).
-/

namespace ApiContract

namespace Pointer

variable {key : List Char}

/-- A key that can be a segment of a reference as it is. -/
structure IsVerbatim (key : List Char) : Prop where
  no_slash : '/' ∉ key
  no_tilde_zero : ¬['~', '0'] <:+: key
  no_tilde_one : ¬['~', '1'] <:+: key

instance (key : List Char) : Decidable (IsVerbatim key) :=
  decidable_of_iff ('/' ∉ key ∧ ¬['~', '0'] <:+: key ∧ ¬['~', '1'] <:+: key)
    ⟨fun h ↦ ⟨h.1, h.2.1, h.2.2⟩, fun h ↦ ⟨h.1, h.2, h.3⟩⟩

/-- Reading escapes makes nothing longer. -/
theorem length_unescape_le (key : List Char) : (unescape key).length ≤ key.length := by
  fun_induction unescape key with
  | case1 rest ih => exact Nat.le_succ_of_le (Nat.succ_le_succ ih)
  | case2 rest ih => exact Nat.le_succ_of_le (Nat.succ_le_succ ih)
  | case3 c rest _ _ ih => exact Nat.succ_le_succ ih
  | case4 => exact Nat.le_refl 0

/-- Reading escapes changes a key exactly if it has one. -/
theorem unescape_eq_self_iff :
    unescape key = key ↔ ¬['~', '0'] <:+: key ∧ ¬['~', '1'] <:+: key := by
  fun_induction unescape key with
  | case1 rest _ =>
    exact iff_of_false (fun h ↦ absurd (List.cons.inj h).1 (by decide))
      fun h ↦ h.2 ⟨[], rest, rfl⟩
  | case2 rest _ =>
    refine iff_of_false (fun h ↦ ?_) fun h ↦ h.1 ⟨[], rest, rfl⟩
    -- what is read is shorter
    have hlength := congrArg List.length (List.cons.inj h).2
    have hle := length_unescape_le rest
    rw [List.length_cons] at hlength
    omega
  | case3 c rest hone hzero ih =>
    have hfront (d : Char) (hnot : ∀ rest', c = '~' → rest = d :: rest' → False) :
        ['~', d] <:+: c :: rest ↔ ['~', d] <:+: rest := by
      rw [List.infix_cons_iff]
      refine or_iff_right fun hbegins ↦ ?_
      obtain ⟨hc, rest', hrest⟩ := List.cons_prefix_cons.1 hbegins
      exact hnot rest' hc.symm hrest.symm
    rw [List.cons_inj_right, ih, hfront '0' hzero, hfront '1' hone]
  | case4 => exact iff_of_true rfl (by decide)

/-- A key that is read off one of its segments is verbatim. -/
theorem isVerbatim_of_mem_splitOn {segment : List Char} (hmem : segment ∈ key.splitOn '/')
    (hread : unescape segment = key) : IsVerbatim key := by
  obtain ⟨hwithin, hslash⟩ := isInfix_of_mem_splitOn hmem
  -- the segment is no shorter than the key, and so it is the key
  have hle : key.length ≤ segment.length := hread ▸ length_unescape_le segment
  obtain rfl := hwithin.eq_of_length_le hle
  obtain ⟨hzero, hone⟩ := unescape_eq_self_iff.1 hread
  exact ⟨hslash, hzero, hone⟩

end Pointer

namespace Lint

open Pointer (IsVerbatim)

variable {policy : LintPolicy} {doc value : Json} {kind name reference closest : String}

/-! ### References to components -/

/-- The document has a component of that name, in that section of `components`. -/
def HasComponent (doc : Json) (kind name : String) (value : Json) : Prop :=
  ∃ parts entries, doc.get? "components" = some (.object parts) ∧
    (kind, .object entries) ∈ parts ∧ (name, value) ∈ entries

/-- The candidates are the references to the components. -/
theorem mem_componentPointers_iff {pointer : String} :
    pointer ∈ componentPointers doc ↔
      ∃ kind name value,
        HasComponent doc kind name value ∧ pointer = componentPointer kind name := by
  constructor
  · intro h
    obtain ⟨⟨kind, part⟩, hpart, hpointer⟩ := List.mem_flatMap.1 h
    obtain ⟨⟨name, value⟩, hentry, rfl⟩ := List.mem_map.1 hpointer
    cases hcomponents : doc.get? "components" with
    | none =>
      rw [hcomponents] at hpart
      exact absurd hpart List.not_mem_nil
    | some components =>
      rw [hcomponents] at hpart
      cases components with
      | object parts =>
        cases part with
        | object entries =>
          exact ⟨kind, name, value, ⟨parts, entries, hcomponents, hpart, hentry⟩, rfl⟩
        | _ => exact absurd hentry List.not_mem_nil
      | _ => exact absurd hpart List.not_mem_nil
  · rintro ⟨kind, name, value, ⟨parts, entries, hcomponents, hpart, hentry⟩, rfl⟩
    refine List.mem_flatMap.2 ⟨(kind, .object entries), ?_, ?_⟩
    · rwa [hcomponents]
    · exact List.mem_map.2 ⟨(name, value), hentry, rfl⟩

/-- The characters of a reference to a component. -/
theorem toList_componentPointer (kind name : String) :
    (componentPointer kind name).toList =
      '#' :: '/' :: ("components".toList ++
        '/' :: (kind.toList ++ '/' :: Pointer.escape name.toList)) := by
  have hpieces (front slash : String) (cs : List Char) :
      (front ++ kind ++ slash ++ String.ofList cs).toList =
        front.toList ++ (kind.toList ++ (slash.toList ++ cs)) := by
    simp only [String.toList_append, String.toList_ofList, List.append_assoc]
  have hfront : "#/components/".toList = '#' :: '/' :: ("components".toList ++ ['/']) := by
    decide +kernel
  calc (componentPointer kind name).toList
    _ = "#/components/".toList ++ (kind.toList ++ ("/".toList ++ Pointer.escape name.toList)) :=
      hpieces "#/components/" "/" (Pointer.escape name.toList)
    _ = _ := by
      rw [hfront, List.cons_append, List.cons_append, List.append_assoc]
      rfl

/-- The segments of a reference to a component: those of the section's name, as it is, and the
component's name as one. -/
theorem segments?_componentPointer (kind name : String) :
    Pointer.segments? (componentPointer kind name).toList =
      some ("components".toList :: (kind.toList.splitOn '/' ++ [Pointer.escape name.toList])) := by
  rw [toList_componentPointer, Pointer.segments?,
    List.splitOn_append_cons_self_of_not_mem (by decide), List.splitOn_append_cons_self,
    List.splitOn_eq_singleton (Pointer.not_mem_escape _)]

/-- A path through the two names leads to the component. -/
theorem HasComponent.follow? (hkeys : doc.DistinctKeys) (h : HasComponent doc kind name value) :
    doc.follow? [.key "components", .key kind, .key name] = some value := by
  obtain ⟨parts, entries, hcomponents, hpart, hentry⟩ := h
  have hparts : doc.HasPart (.object parts) := .get? hcomponents
  have hentries : doc.HasPart (.object entries) := hparts.trans (.of_mem_fields hpart)
  cases doc with
  | object fields =>
    have hfields : field? "components" fields = some (.object parts) := hcomponents
    simp only [Json.follow?, PathStep.child?, hfields, field?_of_mem (hkeys hparts) hpart,
      field?_of_mem (hkeys hentries) hentry, Option.bind_some]
  | _ => exact absurd hcomponents.symm (Option.some_ne_none _)

/-- **A reference to a component leads to it**, if the name of its section is verbatim. -/
theorem resolve?_componentPointer (hkeys : doc.DistinctKeys) (hkind : IsVerbatim kind.toList)
    (h : HasComponent doc kind name value) :
    Pointer.resolve? doc (componentPointer kind name) = some value := by
  refine Pointer.resolve?_eq_some_iff.2 ⟨_, ⟨_, segments?_componentPointer kind name, ?_⟩,
    h.follow? hkeys⟩
  rw [List.splitOn_eq_singleton hkind.no_slash]
  have hread : Pointer.unescape kind.toList = kind.toList :=
    Pointer.unescape_eq_self_iff.2 ⟨hkind.no_tilde_zero, hkind.no_tilde_one⟩
  have hcomponents : Pointer.unescape "components".toList = "components".toList :=
    Pointer.unescape_of_not_mem (by decide)
  exact .cons hcomponents (.cons hread (.cons (Pointer.unescape_escape name.toList) .nil))

/-- Different components have different references. -/
theorem componentPointer_inj {kind' name' : String}
    (h : componentPointer kind name = componentPointer kind' name') :
    kind = kind' ∧ name = name' := by
  have hsegments := segments?_componentPointer kind name
  rw [h, segments?_componentPointer] at hsegments
  obtain ⟨hkind, hname⟩ :=
    List.append_inj' (List.cons.inj (Option.some.inj hsegments)).2 rfl
  constructor
  · have hjoin := congrArg (['/'].intercalate ·) hkind
    simp only [List.intercalate_splitOn] at hjoin
    exact (String.toList_inj.1 hjoin).symm
  · have hread := congrArg Pointer.unescape (List.singleton_inj.1 hname)
    rw [Pointer.unescape_escape, Pointer.unescape_escape] at hread
    exact (String.toList_inj.1 hread).symm

/-! ### Suggestions -/

/-- The best candidate is one of those that there are, or was the best before. -/
theorem mem_of_foldl_step {nameOf : String → Option String} {pattern : String}
    {candidates : List String} {best : Option (Int × String)} {found : Int × String}
    (h : candidates.foldl (Suggestion.closest?.step nameOf pattern) best = some found) :
    found.2 ∈ candidates ∨ best = some found := by
  induction candidates generalizing best with
  | nil => exact .inr h
  | cons candidate rest ih =>
    rcases ih h with hrest | hstep
    · exact .inl (List.mem_cons_of_mem _ hrest)
    · unfold Suggestion.closest?.step at hstep
      split at hstep
      · exact .inr hstep
      · split at hstep
        · exact .inl (Option.some.inj hstep ▸ List.mem_cons_self)
        · split at hstep
          · exact .inl (Option.some.inj hstep ▸ List.mem_cons_self)
          · exact .inr hstep

/-- What is suggested is one of the candidates. -/
theorem mem_of_suggestion? {candidates : List String}
    (h : suggestion? candidates reference = some closest) : closest ∈ candidates := by
  obtain ⟨pattern, -, hclosest⟩ := Option.bind_eq_some_iff.1 h
  obtain ⟨found, hfold, rfl⟩ := Option.map_eq_some_iff.1 hclosest
  exact (mem_of_foldl_step hfold).resolve_right nofun

/-- The finding is about a reference that leads nowhere, and suggests another one for it. -/
def Suggests (doc : Json) (f : Finding) (closest : String) : Prop :=
  ∃ place reference, ReferenceAt doc place reference ∧ Pointer.resolve? doc reference = none ∧
    suggestion? (componentPointers doc) reference = some closest ∧
    f = ⟨.unresolvedReference, location "" place,
      "Unresolvable reference '" ++ reference ++ "' (did you mean '" ++ closest ++ "'?)"⟩

/-- What is suggested is reported, and is the reference to a component. -/
theorem Suggests.mem_errors (policy : LintPolicy) {f : Finding} (h : Suggests doc f closest) :
    f ∈ (lint policy doc).errors := by
  obtain ⟨place, reference, hplace, hdangling, hclosest, rfl⟩ := h
  have herror : unresolvedError doc place reference ∈ checkReferences doc := by
    rw [checkReferences_eq_map]
    exact List.mem_map.2 ⟨_, mem_danglingPlaces_iff.2 ⟨hplace, hdangling⟩, rfl⟩
  rw [← filter_errors_unresolvedReference policy doc, unresolvedError, unresolvedMessage,
    hclosest] at herror
  exact (List.mem_filter.1 herror).1

/-- A suggestion was written for a component. -/
theorem Suggests.exists_component {f : Finding} (h : Suggests doc f closest) :
    ∃ kind name value, HasComponent doc kind name value ∧ closest = componentPointer kind name := by
  obtain ⟨_, _, -, -, hclosest, -⟩ := h
  exact mem_componentPointers_iff.1 (mem_of_suggestion? hclosest)

/-- A suggestion leads to the component that it was written for. -/
theorem Suggests.resolve? {f : Finding} (hkeys : doc.DistinctKeys) (hkind : IsVerbatim kind.toList)
    (h : Suggests doc f (componentPointer kind name)) :
    (Pointer.resolve? doc (componentPointer kind name)).isSome = true := by
  obtain ⟨kind', name', value, hcomponent, hsame⟩ := h.exists_component
  obtain ⟨rfl, rfl⟩ := componentPointer_inj hsame
  rw [resolve?_componentPointer hkeys hkind hcomponent]
  rfl

/-! ### Names of sections that are no segments -/

/-- Where there is no other section, a reference leads into this one only by its name. -/
theorem isVerbatim_of_resolve? {fields : List (String × Json)} {part : Json}
    (hcomponents : field? "components" fields = some (.object [(kind, part)]))
    (h : Pointer.resolve? (.object fields) (componentPointer kind name) = some value) :
    IsVerbatim kind.toList := by
  rw [Pointer.resolve?, segments?_componentPointer, Option.bind_some, Pointer.walk?,
    Option.bind_eq_some_iff] at h
  obtain ⟨components, hfirst, hrest⟩ := h
  have hread : Pointer.unescape "components".toList = "components".toList :=
    Pointer.unescape_of_not_mem (by decide)
  rw [hread, Pointer.step?, String.ofList_toList, hcomponents] at hfirst
  obtain rfl := Option.some.inj hfirst
  obtain ⟨segment, more, hsplit⟩ := List.exists_cons_of_ne_nil (List.splitOn_ne_nil '/' kind.toList)
  rw [hsplit, List.cons_append, Pointer.walk?, Option.bind_eq_some_iff] at hrest
  obtain ⟨entries, hstep, -⟩ := hrest
  have hkind : (String.ofList (Pointer.unescape segment), entries) ∈ [(kind, part)] :=
    mem_of_field? hstep
  obtain ⟨hname, -⟩ := Prod.mk.inj (List.mem_singleton.1 hkind)
  refine Pointer.isVerbatim_of_mem_splitOn (hsplit ▸ List.mem_cons_self) ?_
  rw [← hname, String.toList_ofList]

/-- The name that is read off a reference to a component is the component's. -/
theorem referenceName?_componentPointer (kind : String) (hempty : name ≠ "") (hhash : name ≠ "#") :
    Pointer.referenceName? (componentPointer kind name) = some name := by
  have hlast : ((componentPointer kind name).toList.splitOn '/').getLast? =
      some (Pointer.escape name.toList) := by
    have hfront : (componentPointer kind name).toList =
        ('#' :: '/' :: ("components".toList ++ '/' :: kind.toList)) ++
          '/' :: Pointer.escape name.toList := by
      rw [toList_componentPointer, List.cons_append, List.cons_append, List.append_assoc,
        List.cons_append]
    rw [hfront, List.splitOn_append_cons_self,
      List.splitOn_eq_singleton (Pointer.not_mem_escape _), List.getLast?_concat]
  have hread {cs : List Char} (h : Pointer.escape name.toList = cs) :
      name = String.ofList (Pointer.unescape cs) := by
    rw [← h, Pointer.unescape_escape, String.ofList_toList]
  have hnone : ¬((Pointer.escape name.toList).isEmpty = true ∨
      Pointer.escape name.toList = ['#']) := by
    rintro (hnil | hsharp)
    · exact hempty (hread (List.isEmpty_iff.1 hnil))
    · exact hhash (hread hsharp)
  rw [Pointer.referenceName?, hlast]
  dsimp only
  rw [if_neg hnone, Pointer.unescape_escape, String.ofList_toList]

/-- A document with one section of components, of that name, and one reference that leads
nowhere. -/
def sectionDocument (kind : String) : Json :=
  .object [
    ("components", .object [(kind, .object [("Pet", .null)])]),
    ("x-pet", .object [("$ref", .string "#/Pet")])]

theorem distinctKeys_sectionDocument (kind : String) : (sectionDocument kind).DistinctKeys :=
  Json.distinctKeys_withoutRepeats (sectionDocument kind)

theorem hasComponent_sectionDocument (kind : String) :
    HasComponent (sectionDocument kind) kind "Pet" .null :=
  ⟨_, _, rfl, List.mem_singleton_self _, List.mem_singleton_self _⟩

/-- The one component is suggested for the reference that leads nowhere. -/
theorem exists_suggests_sectionDocument (kind : String) :
    ∃ f, Suggests (sectionDocument kind) f (componentPointer kind "Pet") := by
  have hplace : ReferenceAt (sectionDocument kind) [.field 1 "x-pet", .field 0 "$ref"] "#/Pet" :=
    .field rfl (.entry rfl)
  have hpointers : componentPointers (sectionDocument kind) = [componentPointer kind "Pet"] := rfl
  have hpattern : Pointer.referenceName? "#/Pet" = some "Pet" := by decide +kernel
  have hname : Pointer.referenceName? (componentPointer kind "Pet") = some "Pet" :=
    referenceName?_componentPointer kind (by decide) (by decide)
  obtain ⟨score, hscore⟩ : ∃ score, Suggestion.score? "Pet" "Pet" = some score :=
    Option.isSome_iff_exists.1 (by decide +kernel)
  refine ⟨_, _, "#/Pet", hplace, rfl, ?_, rfl⟩
  rw [hpointers, suggestion?, hpattern, Option.bind_some, Suggestion.closest?, List.foldl_cons,
    List.foldl_nil, Suggestion.closest?.step, hname, Option.bind_some, hscore]
  rfl

/-- **Suggestions lead to components, if the names of the sections allow it.** What the linter
suggests is always a reference that was written for a component of the document. The references to
the components of a section lead to them, in every document, exactly if the name of the section is
verbatim; and no more than that is asked for all suggestions to lead somewhere, and no less. -/
theorem suggestions_resolve_iff (policy : LintPolicy) :
    (∀ doc f closest, Suggests doc f closest → f ∈ (lint policy doc).errors ∧
      ∃ kind name value, HasComponent doc kind name value ∧ closest = componentPointer kind name) ∧
    ∀ kind : String,
      (IsVerbatim kind.toList ↔ ∀ doc : Json, doc.DistinctKeys → ∀ name value,
        HasComponent doc kind name value →
          Pointer.resolve? doc (componentPointer kind name) = some value) ∧
      (IsVerbatim kind.toList ↔ ∀ doc : Json, doc.DistinctKeys → ∀ f name,
        Suggests doc f (componentPointer kind name) →
          (Pointer.resolve? doc (componentPointer kind name)).isSome = true) := by
  refine ⟨fun doc f closest h ↦ ⟨h.mem_errors policy, h.exists_component⟩, fun kind ↦ ⟨?_, ?_⟩⟩
  · refine ⟨fun hkind doc hkeys name value ↦ resolve?_componentPointer hkeys hkind, fun h ↦ ?_⟩
    exact isVerbatim_of_resolve? rfl
      (h _ (distinctKeys_sectionDocument kind) _ _ (hasComponent_sectionDocument kind))
  · refine ⟨fun hkind doc hkeys f name h ↦ h.resolve? hkeys hkind, fun h ↦ ?_⟩
    obtain ⟨f, hsuggests⟩ := exists_suggests_sectionDocument kind
    obtain ⟨value, hvalue⟩ :=
      Option.isSome_iff_exists.1 (h _ (distinctKeys_sectionDocument kind) f _ hsuggests)
    exact isVerbatim_of_resolve? rfl hvalue

/-- A shop whose orders are written with a slash in their name. -/
def shopDocument : Json :=
  .object [
    ("openapi", .string "3.0.3"),
    ("info", .object [("title", .string "Shop"), ("version", .string "1.0.0")]),
    ("paths", .object []),
    ("components", .object [("schemas", .object [
      ("Order/Item", .object [("type", .string "object")]),
      ("Basket", .object [("$ref", .string "#/components/schemas/OrderItem")])])])]

/-- A component whose own name has a slash in it is suggested and found. -/
theorem suggestions_resolve_iff_shopDocument :
    IsVerbatim "schemas".toList ∧ shopDocument.DistinctKeys ∧
      HasComponent shopDocument "schemas" "Order/Item" (.object [("type", .string "object")]) ∧
      Suggests shopDocument ⟨.unresolvedReference, "components.schemas.Basket.$ref",
          "Unresolvable reference '#/components/schemas/OrderItem' " ++
            "(did you mean '#/components/schemas/Order~1Item'?)"⟩
        (componentPointer "schemas" "Order/Item") ∧
      Pointer.resolve? shopDocument (componentPointer "schemas" "Order/Item") =
        some (.object [("type", .string "object")]) := by
  have hkind : IsVerbatim "schemas".toList := by decide
  have hkeys : shopDocument.DistinctKeys := Json.distinctKeys_withoutRepeats shopDocument
  have hcomponent : HasComponent shopDocument "schemas" "Order/Item"
      (.object [("type", .string "object")]) :=
    ⟨_, _, rfl, List.mem_singleton_self _, List.mem_cons_self⟩
  have hsuggests : Suggests shopDocument ⟨.unresolvedReference, "components.schemas.Basket.$ref",
      "Unresolvable reference '#/components/schemas/OrderItem' " ++
        "(did you mean '#/components/schemas/Order~1Item'?)"⟩
      (componentPointer "schemas" "Order/Item") :=
    ⟨[.field 3 "components", .field 0 "schemas", .field 1 "Basket", .field 0 "$ref"], _,
      .field rfl (.field rfl (.field rfl (.entry rfl))), rfl, by decide +kernel, by decide +kernel⟩
  obtain ⟨hpointers, -⟩ := (suggestions_resolve_iff {}).2 "schemas"
  exact ⟨hkind, hkeys, hcomponent, hsuggests, hpointers.1 hkind _ hkeys _ _ hcomponent⟩

/-- A shop with a section of its own, which has a slash in its name. -/
def sharedDocument : Json :=
  .object [
    ("openapi", .string "3.0.3"),
    ("info", .object [("title", .string "Shop"), ("version", .string "1.0.0"),
      ("description", .string "Shop")]),
    ("servers", .array [.object [("url", .string "https://api.test")]]),
    ("paths", .object []),
    ("components", .object [
      ("x-shared/v1", .object [("Product", .object [("type", .string "object")])]),
      ("schemas", .object [
        ("Basket", .object [("$ref", .string "#/components/schemas/Prod")])])])]

/-- The one error suggests a reference that leads nowhere either. -/
theorem suggestion_dangles_sharedDocument :
    sharedDocument.DistinctKeys ∧
      (lint {} sharedDocument).errors =
        [⟨.unresolvedReference, "components.schemas.Basket.$ref",
          "Unresolvable reference '#/components/schemas/Prod' " ++
            "(did you mean '#/components/x-shared/v1/Product'?)"⟩] ∧
      "#/components/x-shared/v1/Product" ∈ componentPointers sharedDocument ∧
      Pointer.resolve? sharedDocument "#/components/x-shared/v1/Product" = none :=
  ⟨Json.distinctKeys_withoutRepeats sharedDocument, by decide +kernel, by decide +kernel, rfl⟩

end Lint

end ApiContract
