import ApiContract.Proofs.Schema.Form
import ApiContract.Proofs.Schema.Merge

/-!
# Required names beside and in `allOf`

What a schema with two or more branches of `allOf` requires is what stands beside them and what the
branches require once they are resolved (`mem_required_allOf_iff`). One would expect that to be all
the names that are written there.

## Main result

`Schema.required_kept_iff`, in every document and at every depth below the ceiling. What is required
beside the branches is kept. A branch that is written out keeps all that it requires exactly if it
describes an object, or if the names are required beside it or by another branch anyway.

## Branches that describe no object

A branch that is written out gives its required names only if it describes an object, by its type or
by what it says of properties (`IsInline.mem_required_iff`): one that has nothing but required
names is taken for a schema that admits anything, and merging leaves it out.
`required_lost_draftFields` is such a branch, of the kind that makes a property of the other branch
required.

## Proof

Merging requires what a branch requires (`Proofs.Schema.Merge`), and the form of a schema says which
names each branch has (`Proofs.Schema.Form`). `IsInline` are the branches that are decided by their
own keywords alone: no reference, no listed values, no composition. A branch that is a reference
keeps what its target keeps.
-/

namespace ApiContract

/-- **Merging requires what a branch or what stands beside them requires.** -/
theorem Form.mem_required_merged_iff {child : Json → Schema} {branches : List Json}
    {beside : Option RecordForm} {name : String} :
    name ∈ ((merged branches beside).node child).required ↔
      (∃ record ∈ beside, name ∈ record.required) ∨
        ∃ branch ∈ branches, name ∈ (child branch).required := by
  rw [node, mem_required_mergeAllOf]
  constructor
  · rintro ⟨schema, hschema, hname⟩
    rcases List.mem_append.1 hschema with hbranch | hbeside
    · obtain ⟨branch, hmem, rfl⟩ := List.mem_map.1 hbranch
      exact .inr ⟨branch, hmem, hname⟩
    · obtain ⟨record, hmem, rfl⟩ := List.mem_map.1 hbeside
      exact .inl ⟨record, Option.mem_toList.1 hmem, hname⟩
  · rintro (⟨record, hmem, hname⟩ | ⟨branch, hmem, hname⟩)
    · exact ⟨{ shape := record.shape child },
        List.mem_append_right _ (List.mem_map_of_mem (Option.mem_toList.2 hmem)), hname⟩
    · exact ⟨child branch, List.mem_append_left _ (List.mem_map_of_mem hmem), hname⟩

namespace Schema

variable {child : Json → Schema} {fields own : List (String × Json)} {branches : List Json}
  {name : String}

/-- A schema has a name among those that it requires. -/
def Requires (fields : List (String × Json)) (name : String) : Prop :=
  ∃ names, field? "required" fields = some (.array names) ∧ .string name ∈ names

/-- The names that are read are those that are written. -/
theorem mem_declaredRequired_iff : name ∈ declaredRequired fields ↔ Requires fields name := by
  have hstring {value : Json} : value.asString? = some name ↔ value = .string name := by
    cases value <;> simp [Json.asString?]
  rw [declaredRequired, Requires]
  split
  · next names hfield =>
    rw [NameSet.mem_ofList, List.mem_filterMap, hfield]
    simp [hstring]
  · next hno =>
    refine iff_of_false List.not_mem_nil ?_
    rintro ⟨names, hfield, -⟩
    exact hno names hfield

/-- Where a name is required, the keyword is there. -/
theorem hasField_of_requires (h : Requires fields name) : hasField "required" fields = true := by
  obtain ⟨names, hfield, -⟩ := h
  rw [hasField, hfield]
  rfl

/-- What a schema requires is decided by its form. -/
theorem required_ofFields (child : Json → Schema) (fields : List (String × Json)) :
    (ofFields child fields).required = ((formOf fields).node child).required := by
  rw [ofFields_eq]
  rfl

/-! ### The schema with the branches -/

/-- Several branches are merged, with the keywords of an object beside them. -/
theorem exists_formOf_eq_merged (hallOf : field? "allOf" fields = some (.array branches))
    (hmany : 2 ≤ branches.length) :
    ∃ beside, formOf fields = .merged branches beside ∧
      ∀ name, (∃ record ∈ beside, name ∈ record.required) ↔ Requires fields name := by
  rw [formOf]
  simp only [hallOf, composedForm]
  split
  · exact absurd hmany (by simp)
  · next hnone =>
    refine ⟨none, rfl, fun name ↦ iff_of_false (by simp) fun hrequires ↦ ?_⟩
    simp [hasField_of_requires hrequires] at hnone
  · exact ⟨_, rfl, fun name ↦ by simp [recordForm, mem_declaredRequired_iff]⟩

/-- **What a schema with several branches of `allOf` requires is required beside them or by one of
them.** -/
theorem mem_required_allOf_iff (hallOf : field? "allOf" fields = some (.array branches))
    (hmany : 2 ≤ branches.length) :
    name ∈ (ofFields child fields).required ↔
      Requires fields name ∨ ∃ branch ∈ branches, name ∈ (child branch).required := by
  obtain ⟨beside, hform, hbeside⟩ := exists_formOf_eq_merged hallOf hmany
  rw [required_ofFields, hform, Form.mem_required_merged_iff, hbeside]

/-! ### A branch that is written out -/

/-- The keywords of a schema make an object of it: its type, or without a type what it says of
properties. -/
def DescribesObject (fields : List (String × Json)) : Prop :=
  (declaredType fields).1 = some "object" ∨
    (declaredType fields).1 = none ∧
      (hasField "properties" fields || hasField "additionalProperties" fields) = true

/-- A schema of type `object`, or of no type, that is no reference, lists no values and is not
composed. -/
structure IsInline (fields : List (String × Json)) : Prop where
  type : (declaredType fields).1 = some "object" ∨ field? "type" fields = none
  keywords : ∀ keyword ∈ ["$ref", "enum", "const"] ++ compositionKeywords,
    field? keyword fields = none

theorem IsInline.not_isComposed (h : IsInline own) : ¬IsComposed own := by
  rintro ⟨keyword, hmem, branches, hfield⟩
  exact absurd (hfield.symm.trans (h.keywords keyword (List.mem_append_right _ hmem))) nofun

/-- A branch that is written out is no reference. -/
theorem IsInline.ne_reference (h : IsInline own) (reference : String) :
    field? "$ref" own ≠ some (.string reference) := by
  rw [h.keywords "$ref" (by decide)]
  exact nofun

/-- What describes an object has the form of one. -/
theorem typedForm_of_describesObject (h : DescribesObject own) :
    typedForm own = .record (recordForm own) := by
  rw [typedForm]
  rcases h with htype | ⟨htype, hproperties⟩
  · simp only [htype]
  · simp only [htype, hproperties, if_true]

/-- Without a type and without properties nothing is known of the values. -/
theorem IsInline.typedForm_eq_leaf (h : IsInline own) (hno : ¬DescribesObject own) :
    typedForm own = .leaf .any := by
  have htype : (declaredType own).1 = none := by
    rw [declaredType, h.type.resolve_left fun htype ↦ hno (.inl htype)]
  have hproperties := fun hproperties ↦ hno (.inr ⟨htype, hproperties⟩)
  rw [typedForm]
  simp only [htype]
  rw [if_neg hproperties, impliedShape, h.keywords "enum" (by decide),
    h.keywords "const" (by decide)]

/-- **A branch that is written out requires its names only if it describes an object.** -/
theorem IsInline.mem_required_iff (h : IsInline own) :
    name ∈ (ofFields child own).required ↔ DescribesObject own ∧ Requires own name := by
  rw [required_ofFields, formOf_of_not_isComposed h.not_isComposed, Form.node]
  by_cases hobject : DescribesObject own
  · rw [typedForm_of_describesObject hobject, ← mem_declaredRequired_iff]
    exact (and_iff_right hobject).symm
  · rw [h.typedForm_eq_leaf hobject]
    exact iff_of_false List.not_mem_nil fun hboth ↦ hobject hboth.1

/-! ### Resolved schemas -/

/-- **The required names of `allOf` are kept, but for those of a branch that does not describe an
object.** What stands beside the branches is kept. A branch that is written out keeps all that it
requires exactly if it describes an object, or if the names are required beside it or by another
branch anyway. -/
theorem required_kept_iff (root : Json) {fields : List (String × Json)} {branches : List Json}
    (hallOf : field? "allOf" fields = some (.array branches)) (hmany : 2 ≤ branches.length)
    (hreference : ∀ reference, field? "$ref" fields ≠ some (.string reference)) {depth : Nat}
    (hdepth : depth < maxResolveDepth) :
    (∀ name, Requires fields name → name ∈ (resolve root (.object fields) depth).required) ∧
      ∀ own, .object own ∈ branches → IsInline own →
        ((∀ name, Requires own name → name ∈ (resolve root (.object fields) depth).required) ↔
          DescribesObject own ∨
            ∀ name, Requires own name → Requires fields name ∨
              ∃ branch ∈ branches, branch ≠ .object own ∧
                name ∈ (resolve root branch (depth + 1)).required) := by
  have hkept (name : String) : name ∈ (resolve root (.object fields) depth).required ↔
      Requires fields name ∨
        ∃ branch ∈ branches, name ∈ (resolve root branch (depth + 1)).required := by
    rw [resolve_eq_ofFields (Nat.le_of_lt hdepth) hreference]
    exact mem_required_allOf_iff hallOf hmany
  refine ⟨fun name hname ↦ (hkept name).2 (.inl hname), fun own hown hinline ↦ ?_⟩
  have hbranch (name : String) : name ∈ (resolve root (.object own) (depth + 1)).required ↔
      DescribesObject own ∧ Requires own name := by
    rw [resolve_eq_ofFields hdepth hinline.ne_reference]
    exact hinline.mem_required_iff
  simp only [hkept]
  constructor
  · intro hall
    -- Such a branch requires nothing once it is resolved, so the name comes from another one.
    refine or_iff_not_imp_left.2 fun hno name hname ↦ (hall name hname).imp_right ?_
    rintro ⟨branch, hmem, hrequired⟩
    refine ⟨branch, hmem, fun heq ↦ ?_, hrequired⟩
    exact hno ((hbranch name).1 (heq ▸ hrequired)).1
  · rintro (hobject | helsewhere) name hname
    · exact .inr ⟨_, hown, (hbranch name).2 ⟨hobject, hname⟩⟩
    · exact (helsewhere name hname).imp_right fun ⟨branch, hmem, _, hrequired⟩ ↦
        ⟨branch, hmem, hrequired⟩

/-- A branch of type `object`. -/
def describedBranch : List (String × Json) :=
  [("type", .string "object"),
    ("properties", .object [("id", .object [("type", .string "string")]),
      ("title", .object [("type", .string "string")])]),
    ("required", .array [.string "id"])]

/-- A branch that only requires a property of the other one. -/
def requiringBranch : List (String × Json) := [("required", .array [.string "title"])]

/-- A draft of the two branches, and a name that is required beside them. -/
def draftFields : List (String × Json) :=
  [("allOf", .array [.object describedBranch, .object requiringBranch]),
    ("required", .array [.string "owner"])]

/-- The names beside the branches and of the branch of type `object` are kept. -/
theorem required_kept_iff_draftFields :
    IsInline describedBranch ∧ DescribesObject describedBranch ∧
      "owner" ∈ (resolve .null (.object draftFields) 7).required ∧
      "id" ∈ (resolve .null (.object draftFields) 7).required := by
  have hinline : IsInline describedBranch :=
    ⟨.inl rfl, by simp [compositionKeywords, describedBranch, field?]⟩
  have hobject : DescribesObject describedBranch := .inl rfl
  have hallOf : field? "allOf" draftFields =
      some (.array [.object describedBranch, .object requiringBranch]) := rfl
  have href (reference : String) : field? "$ref" draftFields ≠ some (.string reference) := by
    simp [draftFields, field?]
  have hdepth : 7 < maxResolveDepth := by decide
  have hkept := required_kept_iff .null hallOf (Nat.le_refl 2) href hdepth
  exact ⟨hinline, hobject, hkept.1 "owner" ⟨_, rfl, List.mem_cons_self⟩,
    (hkept.2 describedBranch List.mem_cons_self hinline).2 (.inl hobject) "id"
      ⟨_, rfl, List.mem_cons_self⟩⟩

/-- The name of the branch that has nothing else is lost. -/
theorem required_lost_draftFields :
    IsInline requiringBranch ∧ Requires requiringBranch "title" ∧
      "title" ∉ (resolve .null (.object draftFields) 0).required := by
  refine ⟨⟨.inr rfl, by simp [compositionKeywords, requiringBranch, field?]⟩,
    ⟨_, rfl, List.mem_cons_self⟩, ?_⟩
  rw [← NameSet.contains_iff]
  decide +kernel

end Schema

end ApiContract
