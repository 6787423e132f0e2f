import ApiContract.Proofs.Json.Pointer
import ApiContract.Proofs.Lint.Agreement
import ApiContract.Proofs.Lint.PlaceholderNames
import Mathlib.Data.Option.Basic
import Mathlib.Logic.Equiv.Basic

/-!
# Renaming placeholders in a document

A document is renamed as a whole (`TemplateRenaming.document`): the paths under `paths`, and in
every reference that leads below `paths` the segment that names a path. Nothing else changes, and no
two paths become one. This is what an author does who calls `{id}` by another name throughout.

## Main result

The renamed document has the operations of the old one, in their order, under the renamed paths
(`Lint.documentedRoutes_document`), path items behind references included.

## Renamings

A `PathRenaming` gives every text a new one that differs in the names of placeholders only, so a
text without a brace is left as it is. A `TemplateRenaming` is injective besides; any two texts that
differ in names may change places (`TemplateRenaming.swap`), which is how examples are made.
References are rewritten segment by segment, and a segment that need not change is left as it was
spelled.

## Proof

Where a reference led, the renamed one leads to what has become of that place (`rel_resolve?`). What
has become of a value is not determined by the value, as it depends on the key above it whether a
text is a reference and whether keys are paths; but following references looks at nothing but
references and methods, and of these `SameItem` keeps track. So there are three kinds of walks: from
the document, from the value of `paths`, and from any value below or beside it
(`rel_walk?_document`, `rel_walk?_renamedPaths`, `rel_walk?_mapReferences`), each an induction on
the segments.

Indices of arrays and names of methods have no braces in them, which is why no renaming touches them
(`index?_rename`, `HttpMethod.ofName?_of_mem`).
-/

namespace ApiContract

/-- Other names for placeholders, in every path. -/
structure PathRenaming where
  rename : String → String
  sameButNames (path : String) : Lint.SameButNames path.toList (rename path).toList

/-- Other names for placeholders, by which no two paths become one. -/
structure TemplateRenaming extends PathRenaming where
  injective : Function.Injective rename

namespace PathRenaming

/-- A route under its new path. -/
def route (ρ : PathRenaming) (route : Route) : Route := { route with path := ρ.rename route.path }

/-- A policy that requires the routes under their new paths. -/
def policy (ρ : PathRenaming) (policy : LintPolicy) : LintPolicy :=
  { policy with requiredRoutes := policy.requiredRoutes.map ρ.route }

variable (ρ : PathRenaming)

/-- A text is left as it is, or it has a brace, and so has the one in its place. -/
theorem eq_or_mem (text : String) :
    ρ.rename text = text ∨ '\x7b' ∈ text.toList ∧ '\x7b' ∈ (ρ.rename text).toList := by
  have hnames := ρ.sameButNames text
  by_cases hbrace : '\x7b' ∈ text.toList
  · by_cases hnew : '\x7b' ∈ (ρ.rename text).toList
    · exact .inr ⟨hbrace, hnew⟩
    · exact .inl (String.toList_injective (hnames.symm.eq_of_not_mem hnew))
  · exact .inl (String.toList_injective (hnames.eq_of_not_mem hbrace)).symm

theorem rename_of_not_mem {text : String} (h : '\x7b' ∉ text.toList) : ρ.rename text = text :=
  (ρ.eq_or_mem text).resolve_right fun hmem ↦ h hmem.1

/-- What is the same for all texts with a brace does not depend on names. -/
theorem apply_eq {α : Type} {f : String → α} {x : α}
    (h : ∀ text : String, '\x7b' ∈ text.toList → f text = x) (text : String) :
    f (ρ.rename text) = f text := by
  rcases ρ.eq_or_mem text with heq | ⟨hbrace, hnew⟩
  · rw [heq]
  · rw [h text hbrace, h _ hnew]

end PathRenaming

namespace TemplateRenaming

/-- Two names for one path change places. -/
def swap (path other : String) (h : Lint.SameButNames path.toList other.toList) :
    TemplateRenaming where
  rename := Equiv.swap path other
  injective := (Equiv.swap path other).injective
  sameButNames text := by
    rw [Equiv.swap_apply_def]
    split
    · next heq => rwa [heq]
    · split
      · next heq => rw [heq]; exact h.symm
      · exact .refl _

end TemplateRenaming

/-! ### Documents -/

namespace Json

mutual

/-- A value under a key, with other texts for the references in it. -/
def mapReferences (f : String → String) (key : String) : Json → Json
  | .string text => .string (if key = "$ref" then f text else text)
  | .array items => .array (itemsMapReferences f items)
  | .object fields => .object (fieldsMapReferences f fields)
  | value => value

/-- Items, with other texts for the references in them. -/
def itemsMapReferences (f : String → String) : List Json → List Json
  | [] => []
  | value :: rest => mapReferences f "" value :: itemsMapReferences f rest

/-- Fields, with other texts for the references in them. -/
def fieldsMapReferences (f : String → String) : List (String × Json) → List (String × Json)
  | [] => []
  | (key, value) :: rest => (key, mapReferences f key value) :: fieldsMapReferences f rest

end

/-- References are replaced in each item. -/
theorem itemsMapReferences_eq_map (f : String → String) (items : List Json) :
    itemsMapReferences f items = items.map (mapReferences f "") := by
  induction items with
  | nil => rfl
  | cons value rest ih => rw [itemsMapReferences, ih, List.map_cons]

/-- References are replaced in the value of each field. -/
theorem fieldsMapReferences_eq_map (f : String → String) (fields : List (String × Json)) :
    fieldsMapReferences f fields = fields.map fun e ↦ (e.1, mapReferences f e.1 e.2) := by
  induction fields with
  | nil => rfl
  | cons entry rest ih => rw [fieldsMapReferences, ih, List.map_cons]

/-- An object with other keys. -/
def mapKeys (f : String → String) : Json → Json
  | .object fields => .object (fields.map fun e ↦ (f e.1, e.2))
  | value => value

/-- An object with another value in one of its fields. -/
def mapField (name : String) (f : Json → Json) : Json → Json
  | .object fields => .object (fields.map fun e ↦ (e.1, if e.1 = name then f e.2 else e.2))
  | value => value

end Json

namespace TemplateRenaming

/-- A segment that names a path, under its new name. -/
def segment (ρ : TemplateRenaming) (segment : List Char) : List Char :=
  let key := String.ofList (Pointer.unescape segment)
  if ρ.rename key = key then segment else Pointer.escape (ρ.rename key).toList

/-- The segments of a reference, of which the one behind `paths` names a path. -/
def segments (ρ : TemplateRenaming) : List (List Char) → List (List Char)
  | [] => []
  | first :: rest =>
    if Pointer.unescape first = "paths".toList then first :: rest.modifyHead ρ.segment
    else first :: rest

/-- A reference that leads where it led before. -/
def reference (ρ : TemplateRenaming) (reference : String) : String :=
  match Pointer.segments? reference.toList with
  | some segments =>
    String.ofList ('#' :: (ρ.segments segments).flatMap fun segment ↦ '/' :: segment)
  | none => reference

/-- A document with other names for the placeholders of its paths. -/
def document (ρ : TemplateRenaming) (doc : Json) : Json :=
  (doc.mapReferences ρ.reference "").mapField "paths" (Json.mapKeys ρ.rename)

end TemplateRenaming

/-! ### What is seen of a path item -/

/-- A field under another key. -/
theorem field?_map {name name' : String} {g : String → String} {h : String → Json → Json}
    (hkey : ∀ key, g key = name' ↔ key = name) (fields : List (String × Json)) :
    field? name' (fields.map fun e ↦ (g e.1, h e.1 e.2)) = (field? name fields).map (h name) := by
  induction fields with
  | nil => rfl
  | cons entry rest ih =>
    rw [List.map_cons, field?, field?, ih]
    by_cases hentry : entry.1 = name
    · rw [if_pos hentry, if_pos ((hkey _).2 hentry), hentry, Option.map_some]
    · rw [if_neg hentry, if_neg fun hnew ↦ hentry ((hkey _).1 hnew)]

/-- No method has a brace in its name. -/
theorem HttpMethod.ofName?_of_mem {name : String} (h : '\x7b' ∈ name.toList) :
    ofName? name = none := by
  rw [ofName?, List.find?_eq_none]
  intro method _ hsame
  -- a brace has no case
  have hlower : '\x7b' ∈ (Text.lower name).toList := by
    rw [Text.lower, String.toList_ofList]
    exact List.mem_map.2 ⟨_, h, rfl⟩
  rw [← beq_iff_eq.1 hsame] at hlower
  revert hlower
  cases method <;> decide

namespace Lint

/-- The methods under which a path item holds an operation. -/
def itemMethods (item : List (String × Json)) : List HttpMethod :=
  item.filterMap fun e ↦ if e.2.asObject?.isSome then HttpMethod.ofName? e.1 else none

/-- The methods under which a value holds an operation, if it is an object. -/
def methods? (value : Json) : Option (List HttpMethod) := value.asObject?.map itemMethods

/-- The routes of a path item are its methods with its path. -/
theorem map_route_itemOperations (template : String) (item : List (String × Json)) :
    (itemOperations template item).map OperationEntry.route =
      (itemMethods item).map fun method ↦ ⟨method, template⟩ := by
  rw [itemOperations, itemMethods, List.map_filterMap, List.map_filterMap]
  refine List.filterMap_congr fun e _ ↦ ?_
  obtain ⟨key, value⟩ := e
  dsimp only
  cases HttpMethod.ofName? key <;> cases value <;> rfl

/-- A value and what has become of it hold operations under the same methods, and a reference in one
is the renamed one of the other. -/
structure SameItem (ρ : TemplateRenaming) (value value' : Json) : Prop where
  reference : value'.stringAt? "$ref" = (value.stringAt? "$ref").map ρ.reference
  methods : methods? value' = methods? value

/-- Keys and values may change like this. -/
structure KeepsItem (ρ : TemplateRenaming) (g : String → String) (h : String → Json → Json) :
    Prop where
  key : ∀ key, g key = key ∨ g key = ρ.rename key
  object : ∀ key value, (h key value).asObject?.isSome = value.asObject?.isSome
  reference : ∀ value, (h "$ref" value).asString? = value.asString?.map ρ.reference

variable {ρ : TemplateRenaming}

/-- An object stays the same item if its keys and values change in these ways. -/
theorem KeepsItem.sameItem {g : String → String} {h : String → Json → Json}
    (hkeeps : KeepsItem ρ g h) (fields : List (String × Json)) :
    SameItem ρ (.object fields) (.object (fields.map fun e ↦ (g e.1, h e.1 e.2))) where
  reference := by
    have hfixed : ρ.rename "$ref" = "$ref" := ρ.rename_of_not_mem (by decide)
    have hkey (key : String) : g key = "$ref" ↔ key = "$ref" := by
      rcases hkeeps.key key with hsame | hnew
      · rw [hsame]
      · rw [hnew, ρ.injective.eq_iff' hfixed]
    rw [Json.stringAt?, Json.get?, field?_map hkey, Json.stringAt?, Json.get?]
    cases field? "$ref" fields with
    | none => rfl
    | some value => exact hkeeps.reference value
  methods := by
    rw [methods?, methods?, Json.asObject?, Json.asObject?, Option.map_some, Option.map_some,
      itemMethods, itemMethods, List.filterMap_map]
    refine congrArg some (List.filterMap_congr fun e _ ↦ ?_)
    have hname : HttpMethod.ofName? (g e.1) = HttpMethod.ofName? e.1 := by
      rcases hkeeps.key e.1 with hsame | hnew
      · rw [hsame]
      · rw [hnew, ρ.apply_eq fun _ ↦ HttpMethod.ofName?_of_mem]
    rw [Function.comp_apply, hkeeps.object, hname]

variable (ρ) in
/-- Replacing references changes keys and values in these ways. -/
theorem keepsItem_mapReferences : KeepsItem ρ id (Json.mapReferences ρ.reference) where
  key _ := .inl rfl
  object key value := by cases value <;> rfl
  reference value := by cases value <;> rfl

/-- A value stays the same item with renamed references. -/
theorem sameItem_mapReferences (key : String) (value : Json) :
    SameItem ρ value (value.mapReferences ρ.reference key) := by
  cases value with
  | object fields =>
    rw [Json.mapReferences, Json.fieldsMapReferences_eq_map]
    exact (keepsItem_mapReferences ρ).sameItem fields
  | _ => exact ⟨rfl, rfl⟩

/-- What has become of the value of `paths`. -/
def renamedPaths (ρ : TemplateRenaming) (value : Json) : Json :=
  (value.mapReferences ρ.reference "paths").mapKeys ρ.rename

/-- The value of `paths` does so under renamed paths. -/
theorem sameItem_renamedPaths (value : Json) : SameItem ρ value (renamedPaths ρ value) := by
  cases value with
  | object fields =>
    rw [renamedPaths, Json.mapReferences, Json.fieldsMapReferences_eq_map, Json.mapKeys,
      List.map_map]
    have hkeeps : KeepsItem ρ ρ.rename (Json.mapReferences ρ.reference) :=
      { keepsItem_mapReferences ρ with key := fun _ ↦ .inr rfl }
    exact hkeeps.sameItem fields
  | _ => exact ⟨rfl, rfl⟩

/-- What has become of a field of the document. -/
def renamedField (ρ : TemplateRenaming) (key : String) (value : Json) : Json :=
  if key = "paths" then renamedPaths ρ value else value.mapReferences ρ.reference key

/-- What has become of a document, field by field. -/
theorem document_object (fields : List (String × Json)) :
    ρ.document (.object fields) = .object (fields.map fun e ↦ (e.1, renamedField ρ e.1 e.2)) := by
  rw [TemplateRenaming.document, Json.mapReferences, Json.fieldsMapReferences_eq_map,
    Json.mapField, List.map_map]
  refine congrArg Json.object (List.map_congr_left fun e _ ↦ ?_)
  rw [Function.comp_apply, renamedField]
  split
  · next hkey => rw [renamedPaths, hkey]
  · rfl

/-- A document stays the same item. -/
theorem sameItem_document (doc : Json) : SameItem ρ doc (ρ.document doc) := by
  cases doc with
  | object fields =>
    rw [document_object]
    have hkeeps : KeepsItem ρ id (renamedField ρ) :=
      { key := fun _ ↦ .inl rfl
        object := fun key value ↦ by
          rw [renamedField]
          split <;> cases value <;> rfl
        reference := (keepsItem_mapReferences ρ).reference }
    exact hkeeps.sameItem fields
  | _ => exact ⟨rfl, rfl⟩

/-! ### References -/

open Pointer

/-- A renamed key is an index exactly if the key is. -/
theorem index?_rename (key : String) : index? (ρ.rename key).toList = index? key.toList := by
  refine ρ.apply_eq (f := fun text ↦ index? text.toList) (x := none) ?_ key
  intro text hbrace
  have hdigits (rest : List Char) (h : '\x7b' ∈ rest) : ¬rest.all Char.isDigit = true := fun hall ↦
    absurd (List.all_eq_true.1 hall _ h) (by decide)
  unfold index?
  split
  · next rest hsign =>
    rw [hsign] at hbrace
    exact if_neg (hdigits rest ((List.mem_cons.1 hbrace).resolve_left (by decide)))
  · exact if_neg (hdigits _ hbrace)

/-- A step leads to what it led to, with renamed references. -/
theorem step?_mapReferences (f : String → String) (segment : List Char) (key : String)
    (value : Json) :
    ∃ key', step? segment (value.mapReferences f key) =
      (step? segment value).map (Json.mapReferences f key') := by
  cases value with
  | object fields =>
    refine ⟨String.ofList segment, ?_⟩
    rw [Json.mapReferences, Json.fieldsMapReferences_eq_map, step?, step?]
    exact field?_map (g := id) (fun _ ↦ Iff.rfl) fields
  | array items =>
    refine ⟨"", ?_⟩
    rw [Json.mapReferences, Json.itemsMapReferences_eq_map, step?, step?, Option.map_bind]
    refine congrArg _ (funext fun i ↦ ?_)
    rw [Function.comp_apply, List.getElem?_map]
  | _ => exact ⟨"", rfl⟩

/-- Below `paths` a renamed step leads where the step led. -/
theorem step?_renamedPaths (name : String) (value : Json) :
    ∃ key, step? (ρ.rename name).toList (renamedPaths ρ value) =
      (step? name.toList value).map (Json.mapReferences ρ.reference key) := by
  cases value with
  | object fields =>
    refine ⟨name, ?_⟩
    rw [renamedPaths, Json.mapReferences, Json.fieldsMapReferences_eq_map, Json.mapKeys,
      List.map_map, step?, step?, String.ofList_toList, String.ofList_toList]
    exact field?_map (fun _ ↦ ρ.injective.eq_iff) fields
  | array items =>
    obtain ⟨key, hstep⟩ := step?_mapReferences ρ.reference name.toList "paths" (.array items)
    refine ⟨key, ?_⟩
    rw [← hstep]
    -- an array has no keys, and an index has no brace
    show (index? (ρ.rename name).toList).bind _ = (index? name.toList).bind _
    rw [index?_rename]
  | _ => exact ⟨"", rfl⟩

/-- The value of `paths` is renamed. -/
theorem get?_document (doc : Json) :
    (ρ.document doc).get? "paths" = (doc.get? "paths").map (renamedPaths ρ) := by
  cases doc with
  | object fields =>
    rw [document_object]
    exact field?_map (g := id) (h := renamedField ρ) (fun _ ↦ Iff.rfl) fields
  | _ => rfl

/-- A step from the document to another value than that of `paths`. -/
theorem step?_document {segment : List Char} (h : segment ≠ "paths".toList) (doc : Json) :
    ∃ key, step? segment (ρ.document doc) =
      (step? segment doc).map (Json.mapReferences ρ.reference key) := by
  cases doc with
  | object fields =>
    have hname : String.ofList segment ≠ "paths" := fun heq ↦
      h (by rw [← heq, String.toList_ofList])
    have hfield : renamedField ρ (String.ofList segment) =
        Json.mapReferences ρ.reference (String.ofList segment) :=
      funext fun _ ↦ if_neg hname
    refine ⟨String.ofList segment, ?_⟩
    rw [document_object, ← hfield]
    exact field?_map (g := id) (fun _ ↦ Iff.rfl) fields
  | array items => exact step?_mapReferences ρ.reference segment "" (.array items)
  | _ => exact ⟨"", rfl⟩

/-- A walk leads to the same item, with renamed references. -/
theorem rel_walk?_mapReferences (segments : List (List Char)) (key : String) (value : Json) :
    Option.Rel (SameItem ρ) (walk? segments value)
      (walk? segments (value.mapReferences ρ.reference key)) := by
  induction segments generalizing key value with
  | nil => exact .some (sameItem_mapReferences key value)
  | cons segment rest ih =>
    obtain ⟨key', hstep⟩ := step?_mapReferences ρ.reference (unescape segment) key value
    rw [walk?, walk?, hstep]
    cases step? (unescape segment) value with
    | none => exact .none
    | some next => exact ih key' next

/-- A renamed segment is read as the renamed path. -/
theorem unescape_segment (segment : List Char) :
    unescape (ρ.segment segment) = (ρ.rename (String.ofList (unescape segment))).toList := by
  rw [TemplateRenaming.segment]
  split
  · next hsame => rw [hsame, String.toList_ofList]
  · exact unescape_escape _

/-- From the value of `paths`, a walk with its first segment renamed leads to the same item. -/
theorem rel_walk?_renamedPaths (segments : List (List Char)) (value : Json) :
    Option.Rel (SameItem ρ) (walk? segments value)
      (walk? (segments.modifyHead ρ.segment) (renamedPaths ρ value)) := by
  cases segments with
  | nil => exact .some (sameItem_renamedPaths value)
  | cons segment rest =>
    obtain ⟨key, hstep⟩ := step?_renamedPaths (ρ := ρ) (String.ofList (unescape segment)) value
    rw [String.toList_ofList, ← unescape_segment] at hstep
    rw [List.modifyHead_cons, walk?, walk?, hstep]
    cases step? (unescape segment) value with
    | none => exact .none
    | some next => exact rel_walk?_mapReferences rest key next

/-- From the document, a renamed walk leads to the same item. -/
theorem rel_walk?_document (segments : List (List Char)) (doc : Json) :
    Option.Rel (SameItem ρ) (walk? segments doc)
      (walk? (ρ.segments segments) (ρ.document doc)) := by
  cases segments with
  | nil => exact .some (sameItem_document doc)
  | cons first rest =>
    rw [TemplateRenaming.segments]
    split
    · next hpaths =>
      have hstep : step? (unescape first) (ρ.document doc) =
          (step? (unescape first) doc).map (renamedPaths ρ) := by
        rw [step?_eq_get? hpaths (by decide), step?_eq_get? hpaths (by decide), get?_document]
      rw [walk?, walk?, hstep]
      cases step? (unescape first) doc with
      | none => exact .none
      | some value => exact rel_walk?_renamedPaths rest value
    · next hpaths =>
      obtain ⟨key, hstep⟩ := step?_document (ρ := ρ) hpaths doc
      rw [walk?, walk?, hstep]
      cases step? (unescape first) doc with
      | none => exact .none
      | some value => exact rel_walk?_mapReferences rest key value

/-- No segment of a reference has a slash in it. -/
theorem slash_not_mem_of_segments? {reference : List Char} {segments : List (List Char)}
    (h : segments? reference = some segments) : ∀ segment ∈ segments, '/' ∉ segment := by
  unfold segments? at h
  split at h
  · obtain rfl := Option.some.inj h
    exact nofun
  · obtain rfl := Option.some.inj h
    exact fun segment hsegment ↦ (isInfix_of_mem_splitOn hsegment).2
  · exact absurd h nofun

theorem slash_not_mem_segments {segments : List (List Char)}
    (h : ∀ segment ∈ segments, '/' ∉ segment) : ∀ segment ∈ ρ.segments segments, '/' ∉ segment := by
  have hsegment {segment : List Char} (hslash : '/' ∉ segment) : '/' ∉ ρ.segment segment := by
    rw [TemplateRenaming.segment]
    split
    · exact hslash
    · exact not_mem_escape _
  unfold TemplateRenaming.segments
  split
  · exact h
  · next first rest =>
    obtain ⟨hfirst, hrest⟩ := List.forall_mem_cons.1 h
    have hbehind : ∀ segment ∈ rest.modifyHead ρ.segment, '/' ∉ segment := by
      cases rest with
      | nil => exact hrest
      | cons second rest =>
        obtain ⟨hsecond, hrest⟩ := List.forall_mem_cons.1 hrest
        exact List.forall_mem_cons.2 ⟨hsegment hsecond, hrest⟩
    split
    · exact List.forall_mem_cons.2 ⟨hfirst, hbehind⟩
    · exact h

/-- A renamed reference has the renamed segments. -/
theorem segments?_reference (reference : String) :
    segments? (ρ.reference reference).toList = (segments? reference.toList).map ρ.segments := by
  rw [TemplateRenaming.reference]
  cases hsegments : segments? reference.toList with
  | none => exact hsegments
  | some segments =>
    rw [String.toList_ofList,
      segments?_flatMap (slash_not_mem_segments (slash_not_mem_of_segments? hsegments))]
    rfl

/-- **A renamed reference leads to what has become of the place where it led.** -/
theorem rel_resolve? (doc : Json) (reference : String) :
    Option.Rel (SameItem ρ) (resolve? doc reference)
      (resolve? (ρ.document doc) (ρ.reference reference)) := by
  rw [resolve?, resolve?, segments?_reference]
  cases segments? reference.toList with
  | none => exact .none
  | some segments => exact rel_walk?_document segments doc

/-! ### Operations -/

/-- Following references ends at path items with the same methods. -/
theorem bind_methods?_followReferences {doc value value' : Json} (h : SameItem ρ value value')
    (n : Nat) :
    (followReferences (ρ.document doc) n value').bind methods? =
      (followReferences doc n value).bind methods? := by
  induction n generalizing value value' with
  | zero => rfl
  | succ n ih =>
    rw [followReferences, followReferences, h.reference]
    cases value.stringAt? "$ref" with
    | none => exact h.methods
    | some reference =>
      have hrel := rel_resolve? (ρ := ρ) doc reference
      dsimp only [Option.map_some]
      generalize resolve? doc reference = target at hrel
      generalize resolve? (ρ.document doc) (ρ.reference reference) = target' at hrel
      cases hrel with
      | none => rfl
      | some hsame => exact ih hsame

theorem map_itemMethods_pathItem? (doc value : Json) :
    (pathItem? doc value).map itemMethods = (dereference? doc value).bind methods? :=
  Option.map_bind

/-- The entries under `paths` are renamed, keys and references. -/
theorem pathEntries_document (doc : Json) :
    pathEntries (ρ.document doc) =
      (pathEntries doc).map fun e ↦ (ρ.rename e.1, e.2.mapReferences ρ.reference e.1) := by
  rw [pathEntries, pathEntries, get?_document]
  cases doc.get? "paths" with
  | none => rfl
  | some value =>
    cases value with
    | object entries =>
      rw [Option.map_some, renamedPaths, Json.mapReferences, Json.fieldsMapReferences_eq_map,
        Json.mapKeys, List.map_map]
      rfl
    | _ => rfl

/-- The routes of the operations of a document, in their order. -/
def documentedRoutes (doc : Json) : List Route := (operations doc).map OperationEntry.route

/-- The routes of a document are those of its path items, in their order. -/
theorem documentedRoutes_eq_flatMap (doc : Json) :
    documentedRoutes doc = (pathEntries doc).flatMap fun entry ↦
      (((dereference? doc entry.2).bind methods?).getD []).map fun method ↦ ⟨method, entry.1⟩ := by
  rw [documentedRoutes, operations_eq_flatMap, List.map_flatMap]
  refine List.flatMap_congr fun entry _ ↦ ?_
  rw [← map_itemMethods_pathItem?]
  cases pathItem? doc entry.2 with
  | none => rfl
  | some item => exact map_route_itemOperations entry.1 item

/-- **A renamed document has the same operations**, in their order, under the renamed paths. -/
theorem documentedRoutes_document (ρ : TemplateRenaming) (doc : Json) :
    documentedRoutes (ρ.document doc) = (documentedRoutes doc).map ρ.route := by
  rw [documentedRoutes_eq_flatMap, documentedRoutes_eq_flatMap, pathEntries_document,
    List.flatMap_map, List.map_flatMap]
  refine List.flatMap_congr fun entry _ ↦ ?_
  rw [dereference?, dereference?,
    bind_methods?_followReferences (sameItem_mapReferences entry.1 entry.2), List.map_map]
  rfl

end Lint

end ApiContract
