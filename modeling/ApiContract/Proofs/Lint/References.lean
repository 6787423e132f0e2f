import ApiContract.Lint.References
import ApiContract.Proofs.Json.Place
import Mathlib.Data.List.Nodup

/-!
# Which references the linter meets

`ReferenceAt` says that a `$ref` with a text stands at a place of a document, whatever is around it:
in a schema, a parameter, an example or an extension. The walk of the linter goes through the whole
document, and this module says that it misses none of them and meets none of them twice.

## Main results

* `mem_referencePlaces_iff`: the walk meets a reference exactly where one stands.
* `nodup_map_referencePlaces`: it meets each of them once.
* `references_eq_map`: what the linter has in its hands are the references of the walk, each with
  its place as it is written.

## Places and what is written of them

A place is a list of steps, with the index of each field; what the linter writes of it (`location`)
is the keys and indices with separators between them. Two places may be written alike, where a key
holds a separator, so the places themselves are counted and not their texts. For this,
`referencePlaces` is the walk that keeps the places.

## Proof

All three are inductions on the document, mutually for values, fields and items. Fields and items
are numbered as the walk goes along, so their lemmas have the index of the first one as a parameter.
The places of two fields are different because their indices are, and those below one field by
induction.
-/

namespace ApiContract

open Json (Step)

/-- A `$ref` with a text stands at a place of a value. -/
inductive ReferenceAt : Json → List Step → String → Prop
  | entry {fields : List (String × Json)} {index : Nat} {reference : String}
      (h : fields[index]? = some ("$ref", .string reference)) :
      ReferenceAt (.object fields) [.field index "$ref"] reference
  | field {fields : List (String × Json)} {index : Nat} {key : String} {value : Json}
      {place : List Step} {reference : String} (h : fields[index]? = some (key, value))
      (hbelow : ReferenceAt value place reference) :
      ReferenceAt (.object fields) (.field index key :: place) reference
  | item {items : List Json} {index : Nat} {value : Json} {place : List Step} {reference : String}
      (h : items[index]? = some value) (hbelow : ReferenceAt value place reference) :
      ReferenceAt (.array items) (.item index :: place) reference

/-- A `$ref` of a part is one of the whole. -/
theorem ReferenceAt.of_hasPart {root : Json} {fields : List (String × Json)} {reference : String}
    (hpart : root.HasPart (.object fields))
    (hentry : field? "$ref" fields = some (.string reference)) :
    ∃ place, ReferenceAt root place reference := by
  obtain ⟨place, hplace⟩ := hpart
  -- along the place of the object: each step to a part is a constructor of `ReferenceAt`
  induction place generalizing root with
  | nil =>
    obtain rfl : root = .object fields := Option.some.inj hplace
    obtain ⟨index, hindex⟩ := List.mem_iff_getElem?.1 (mem_of_field? hentry)
    exact ⟨_, .entry hindex⟩
  | cons step rest ih =>
    obtain ⟨value, hstep, hrest⟩ := Option.bind_eq_some_iff.1 hplace
    obtain ⟨place, hbelow⟩ := ih hrest
    cases root with
    | object entries =>
      cases step with
      | field index key => exact ⟨_, .field (Json.step?_field_eq_some_iff.1 hstep) hbelow⟩
      | item index => exact absurd hstep nofun
    | array items =>
      cases step with
      | field index key => exact absurd hstep nofun
      | item index => exact ⟨_, .item hstep hbelow⟩
    | _ => exact absurd hstep (by cases step <;> exact nofun)

namespace Lint

/-- How a place below a place is written. -/
def location (path : String) : List Step → String
  | [] => path
  | .field _ key :: rest => location (child path key) rest
  | .item index :: rest => location (item path index) rest

/-- The text of a field, if it is a reference. -/
def reference? (key : String) (value : Json) : Option String :=
  if key = "$ref" then value.asString? else none

/-- A field is a reference by its key, if its value is a text. -/
theorem reference?_eq_some_iff {key reference : String} {value : Json} :
    reference? key value = some reference ↔ key = "$ref" ∧ value = .string reference := by
  unfold reference?
  split
  · next hkey => cases value <;> simp [Json.asString?, hkey]
  · next hkey => simp [hkey]

mutual

/-- The references of a value, each with its place. -/
def referencePlaces : Json → List (List Step × String)
  | .object fields => fieldReferencePlaces 0 fields
  | .array items => itemReferencePlaces 0 items
  | _ => []

/-- The references of fields, the first of which has that index. -/
def fieldReferencePlaces (index : Nat) : List (String × Json) → List (List Step × String)
  | [] => []
  | (key, value) :: rest =>
    (match reference? key value with
      | some reference => [([.field index key], reference)]
      | none => (referencePlaces value).map fun found ↦ (.field index key :: found.1, found.2)) ++
      fieldReferencePlaces (index + 1) rest

/-- The references of items, the first of which has that index. -/
def itemReferencePlaces (index : Nat) : List Json → List (List Step × String)
  | [] => []
  | value :: rest =>
    (referencePlaces value).map (fun found ↦ (.item index :: found.1, found.2)) ++
      itemReferencePlaces (index + 1) rest

end

/-! ### The walk of the linter -/

/-- The references of the first field, and those of the others. -/
theorem fieldReferences_cons (path key : String) (value : Json) (rest : List (String × Json)) :
    fieldReferences path ((key, value) :: rest) =
      (match reference? key value with
        | some reference => [(child path key, reference)]
        | none => references (child path key) value) ++ fieldReferences path rest := by
  cases value with
  | string text =>
    rw [fieldReferences, reference?]
    split <;> rfl
  | _ =>
    rw [show reference? key _ = none by rw [reference?]; split <;> rfl, fieldReferences]
    exact nofun

mutual

/-- **The linter meets each reference at its place.** -/
theorem references_eq_map (path : String) :
    ∀ value : Json, references path value =
      (referencePlaces value).map fun found ↦ (location path found.1, found.2)
  | .object fields => by
    rw [references, referencePlaces, fieldReferences_eq_map path 0 fields]
  | .array items => by
    rw [references, referencePlaces, itemReferences_eq_map path 0 items]
  | .null | .bool _ | .number _ | .string _ => rfl

theorem fieldReferences_eq_map (path : String) (index : Nat) :
    ∀ fields : List (String × Json), fieldReferences path fields =
      (fieldReferencePlaces index fields).map fun found ↦ (location path found.1, found.2)
  | [] => rfl
  | (key, value) :: rest => by
    rw [fieldReferences_cons, fieldReferencePlaces, List.map_append,
      fieldReferences_eq_map path (index + 1) rest]
    cases reference? key value with
    | some reference => rfl
    | none =>
      rw [references_eq_map (child path key) value, List.map_map]
      rfl

theorem itemReferences_eq_map (path : String) (index : Nat) :
    ∀ items : List Json, itemReferences path index items =
      (itemReferencePlaces index items).map fun found ↦ (location path found.1, found.2)
  | [] => rfl
  | value :: rest => by
    rw [itemReferences, itemReferencePlaces, List.map_append,
      itemReferences_eq_map path (index + 1) rest, references_eq_map (item path index) value,
      List.map_map]
    rfl

end

/-! ### Each reference once -/

/-- A reference is the first field, below it, or among the others. -/
theorem mem_fieldReferencePlaces_cons {index : Nat} {key : String} {value : Json}
    {rest : List (String × Json)} {found : List Step × String} :
    found ∈ fieldReferencePlaces index ((key, value) :: rest) ↔
      (key = "$ref" ∧ value = .string found.2 ∧ found.1 = [.field index key] ∨
        ∃ place, (place, found.2) ∈ referencePlaces value ∧ found.1 = .field index key :: place) ∨
      found ∈ fieldReferencePlaces (index + 1) rest := by
  obtain ⟨place, reference⟩ := found
  rw [fieldReferencePlaces, List.mem_append]
  refine or_congr_left ?_
  cases hreference : reference? key value with
  | some text =>
    obtain ⟨rfl, rfl⟩ := reference?_eq_some_iff.1 hreference
    simp [referencePlaces, and_comm, eq_comm]
  | none =>
    have hno : ¬(key = "$ref" ∧ value = .string reference) := fun hentry ↦ by
      rw [reference?_eq_some_iff.2 hentry] at hreference
      exact absurd hreference nofun
    simp only [List.mem_map, Prod.mk.injEq, Prod.exists]
    constructor
    · rintro ⟨below, text, hbelow, rfl, rfl⟩
      exact .inr ⟨below, hbelow, rfl⟩
    · rintro (⟨hkey, hvalue, -⟩ | ⟨below, hbelow, rfl⟩)
      · exact absurd ⟨hkey, hvalue⟩ hno
      · exact ⟨below, reference, hbelow, rfl, rfl⟩

mutual

/-- **The linter meets a reference exactly where one stands.** -/
theorem mem_referencePlaces_iff (place : List Step) (reference : String) :
    ∀ value : Json, (place, reference) ∈ referencePlaces value ↔ ReferenceAt value place reference
  | .object fields => by
    rw [referencePlaces, mem_fieldReferencePlaces_iff place reference 0 fields]
    constructor
    · rintro ⟨⟨key, value⟩, index, h, ⟨rfl, rfl, rfl⟩ | ⟨below, hbelow, rfl⟩⟩
      · exact .entry (List.mem_zipIdx_iff_getElem?.1 h)
      · exact .field (List.mem_zipIdx_iff_getElem?.1 h) hbelow
    · intro h
      cases h with
      | entry h => exact ⟨_, _, List.mem_zipIdx_iff_getElem?.2 h, .inl ⟨rfl, rfl, rfl⟩⟩
      | field h hbelow => exact ⟨_, _, List.mem_zipIdx_iff_getElem?.2 h, .inr ⟨_, hbelow, rfl⟩⟩
  | .array items => by
    rw [referencePlaces, mem_itemReferencePlaces_iff place reference 0 items]
    constructor
    · rintro ⟨value, index, h, below, hbelow, rfl⟩
      exact .item (List.mem_zipIdx_iff_getElem?.1 h) hbelow
    · intro h
      cases h with
      | item h hbelow => exact ⟨_, _, List.mem_zipIdx_iff_getElem?.2 h, _, hbelow, rfl⟩
  | .null | .bool _ | .number _ | .string _ => ⟨nofun, nofun⟩

theorem mem_fieldReferencePlaces_iff (place : List Step) (reference : String) (index : Nat) :
    ∀ fields : List (String × Json), (place, reference) ∈ fieldReferencePlaces index fields ↔
      ∃ entry i, (entry, i) ∈ fields.zipIdx index ∧
        (entry.1 = "$ref" ∧ entry.2 = .string reference ∧ place = [.field i entry.1] ∨
          ∃ below, ReferenceAt entry.2 below reference ∧ place = .field i entry.1 :: below)
  | [] => by simp [fieldReferencePlaces]
  | (key, value) :: rest => by
    rw [mem_fieldReferencePlaces_cons,
      mem_fieldReferencePlaces_iff place reference (index + 1) rest]
    simp [mem_referencePlaces_iff _ reference value, List.zipIdx_cons, or_and_right, exists_or]

theorem mem_itemReferencePlaces_iff (place : List Step) (reference : String) (index : Nat) :
    ∀ items : List Json, (place, reference) ∈ itemReferencePlaces index items ↔
      ∃ value i, (value, i) ∈ items.zipIdx index ∧
        ∃ below, ReferenceAt value below reference ∧ place = .item i :: below
  | [] => by simp [itemReferencePlaces]
  | value :: rest => by
    rw [itemReferencePlaces, List.mem_append,
      mem_itemReferencePlaces_iff place reference (index + 1) rest]
    simp [mem_referencePlaces_iff _ reference value, List.zipIdx_cons, or_and_right, exists_or,
      eq_comm]

end

/-- The places of fields begin with an index that is not below the first one. -/
theorem index_of_mem_fieldReferencePlaces {index : Nat} {fields : List (String × Json)}
    {place : List Step} (h : place ∈ (fieldReferencePlaces index fields).map Prod.fst) :
    ∃ i key below, index ≤ i ∧ place = .field i key :: below := by
  obtain ⟨⟨place, reference⟩, hmem, rfl⟩ := List.mem_map.1 h
  obtain ⟨entry, i, hentry, h⟩ := (mem_fieldReferencePlaces_iff _ _ _ _).1 hmem
  obtain ⟨-, -, rfl⟩ | ⟨below, -, rfl⟩ := h
  · exact ⟨i, _, [], (List.mem_zipIdx hentry).1, rfl⟩
  · exact ⟨i, _, below, (List.mem_zipIdx hentry).1, rfl⟩

theorem index_of_mem_itemReferencePlaces {index : Nat} {items : List Json} {place : List Step}
    (h : place ∈ (itemReferencePlaces index items).map Prod.fst) :
    ∃ i below, index ≤ i ∧ place = .item i :: below := by
  obtain ⟨⟨place, reference⟩, hmem, rfl⟩ := List.mem_map.1 h
  obtain ⟨value, i, hvalue, below, -, rfl⟩ := (mem_itemReferencePlaces_iff _ _ _ _).1 hmem
  exact ⟨i, below, (List.mem_zipIdx hvalue).1, rfl⟩

/-- The places of what stands below a step are those of the value there. -/
theorem map_fst_map_cons (step : Step) (found : List (List Step × String)) :
    (found.map fun f ↦ (step :: f.1, f.2)).map Prod.fst = (found.map Prod.fst).map (step :: ·) := by
  rw [List.map_map, List.map_map]
  rfl

mutual

/-- **The linter meets each reference once.** -/
theorem nodup_map_referencePlaces : ∀ value : Json, ((referencePlaces value).map Prod.fst).Nodup
  | .object fields => nodup_map_fieldReferencePlaces 0 fields
  | .array items => nodup_map_itemReferencePlaces 0 items
  | .null | .bool _ | .number _ | .string _ => List.nodup_nil

theorem nodup_map_fieldReferencePlaces (index : Nat) :
    ∀ fields : List (String × Json), ((fieldReferencePlaces index fields).map Prod.fst).Nodup
  | [] => List.nodup_nil
  | (key, value) :: rest => by
    have hrest := nodup_map_fieldReferencePlaces (index + 1) rest
    -- what is found in the rest stands under a later index
    have hapart : ∀ below : List Step,
        .field index key :: below ∉ (fieldReferencePlaces (index + 1) rest).map Prod.fst := by
      intro below h
      obtain ⟨i, _, _, hi, heq⟩ := index_of_mem_fieldReferencePlaces h
      obtain rfl : index = i := by injection heq with hstep; injection hstep
      exact absurd hi (Nat.not_succ_le_self index)
    rw [fieldReferencePlaces, List.map_append]
    cases reference? key value with
    | some reference => exact List.nodup_cons.2 ⟨hapart [], hrest⟩
    | none =>
      rw [map_fst_map_cons]
      refine ((nodup_map_referencePlaces value).map List.cons_injective).append hrest ?_
      intro place hplace
      obtain ⟨below, -, rfl⟩ := List.mem_map.1 hplace
      exact hapart below

theorem nodup_map_itemReferencePlaces (index : Nat) :
    ∀ items : List Json, ((itemReferencePlaces index items).map Prod.fst).Nodup
  | [] => List.nodup_nil
  | value :: rest => by
    rw [itemReferencePlaces, List.map_append, map_fst_map_cons]
    refine ((nodup_map_referencePlaces value).map List.cons_injective).append
      (nodup_map_itemReferencePlaces (index + 1) rest) ?_
    intro place hplace hrest
    obtain ⟨below, -, rfl⟩ := List.mem_map.1 hplace
    obtain ⟨i, _, hi, heq⟩ := index_of_mem_itemReferencePlaces hrest
    obtain rfl : index = i := by injection heq with hstep; injection hstep
    exact absurd hi (Nat.not_succ_le_self index)

end

end Lint

end ApiContract
