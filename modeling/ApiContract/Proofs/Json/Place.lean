import ApiContract.Json.Pointer

/-!
# Places in a document

A part of a value stands at a place: the steps that lead to it, through fields by index and key and
through items by index. Fields are counted, so that a key that an object repeats gives two places; a
reference, which goes by keys alone, would only ever lead to the first of them.

## Representation

A place is a list of `Json.Step`s and leads to at most one part (`Json.at?`). `Json.HasPart` forgets
the place: it is what a walk over a document needs to know of the values that it meets, and it is
reflexive and transitive.

## Results

Whatever is read off a value is a part of it, by a field (`HasPart.get?`), an item
(`HasPart.of_mem_items`) or a reference (`HasPart.resolve?`). The versions for what was looked up
first, and may not be there, follow the shape in which the linter and the builder ask for the
entries of a document.

So what holds of all parts of a document, such as that its references have targets or that its
objects repeat no key, holds of everything that the linter, the builder and the resolver meet on
their ways.
-/

namespace ApiContract

/-- What is found under a name stands among the fields. -/
theorem mem_of_field? {name : String} {fields : List (String × Json)} {value : Json}
    (h : field? name fields = some value) : (name, value) ∈ fields := by
  induction fields with
  | nil => exact absurd h nofun
  | cons entry rest ih =>
    rw [field?] at h
    split at h
    · next hkey =>
      obtain rfl : entry.2 = value := Option.some.inj h
      exact List.mem_cons.2 (Or.inl (by rw [← hkey]))
    · exact List.mem_cons_of_mem _ (ih h)

namespace Json

theorem asString?_eq_some_iff {value : Json} {text : String} :
    value.asString? = some text ↔ value = .string text := by
  cases value <;> simp [asString?]

/-- A text under a name is a field of an object. -/
theorem stringAt?_eq_some_iff {name text : String} {value : Json} :
    value.stringAt? name = some text ↔
      ∃ fields, value = .object fields ∧ field? name fields = some (.string text) := by
  cases value <;> simp [stringAt?, get?, Option.bind_eq_some_iff, asString?_eq_some_iff]

theorem asObject?_eq_some_iff {value : Json} {fields : List (String × Json)} :
    value.asObject? = some fields ↔ value = .object fields := by
  cases value <;> simp [asObject?]

/-- A step from a value to a part of it. -/
inductive Step where
  /-- To the value of the field with that index and key. -/
  | field (index : Nat) (key : String)
  /-- To the item with that index. -/
  | item (index : Nat)
  deriving DecidableEq, Repr

/-- The part of a value that a step leads to. -/
def step? : Step → Json → Option Json
  | .field index key, .object fields =>
    fields[index]?.bind fun entry ↦ if entry.1 = key then some entry.2 else none
  | .item index, .array items => items[index]?
  | _, _ => none

/-- The part of a value at a place. -/
def at? : List Step → Json → Option Json
  | [], value => some value
  | step :: rest, value => (step? step value).bind (at? rest)

/-- A value has a part, at some place or other. -/
def HasPart (root value : Json) : Prop := ∃ place, at? place root = some value

/-- A place is gone to in two parts. -/
theorem at?_append (front rest : List Step) (value : Json) :
    at? (front ++ rest) value = (at? front value).bind (at? rest) := by
  induction front generalizing value with
  | nil => rfl
  | cons step front ih =>
    rw [List.cons_append, at?, at?, Option.bind_assoc]
    exact congrArg _ (funext ih)

/-- A step leads to the value of a field exactly if the field stands there. -/
theorem step?_field_eq_some_iff {index : Nat} {key : String} {fields : List (String × Json)}
    {value : Json} :
    step? (.field index key) (.object fields) = some value ↔
      fields[index]? = some (key, value) := by
  rw [step?, Option.bind_eq_some_iff]
  constructor
  · rintro ⟨⟨name, found⟩, hentry, hkey⟩
    obtain ⟨rfl, rfl⟩ : name = key ∧ found = value := by simpa using hkey
    exact hentry
  · intro hentry
    exact ⟨(key, value), hentry, if_pos rfl⟩

namespace HasPart

variable {root value : Json}

theorem refl (value : Json) : HasPart value value := ⟨[], rfl⟩

/-- A part of a part is a part. -/
theorem trans {part : Json} (h : HasPart root value) (hpart : HasPart value part) :
    HasPart root part := by
  obtain ⟨front, hfront⟩ := h
  obtain ⟨rest, hrest⟩ := hpart
  refine ⟨front ++ rest, ?_⟩
  rw [at?_append, hfront]
  exact hrest

/-- The value of a field is a part. -/
theorem of_mem_fields {fields : List (String × Json)} {key : String}
    (h : (key, value) ∈ fields) : HasPart (.object fields) value := by
  obtain ⟨index, hentry⟩ := List.mem_iff_getElem?.1 h
  refine ⟨[.field index key], ?_⟩
  rw [at?, step?_field_eq_some_iff.2 hentry]
  rfl

theorem of_mem_items {items : List Json} (h : value ∈ items) : HasPart (.array items) value := by
  obtain ⟨index, hitem⟩ := List.mem_iff_getElem?.1 h
  exact ⟨[.item index], by rw [at?, step?, hitem]; rfl⟩

theorem field? {name : String} {fields : List (String × Json)}
    (h : ApiContract.field? name fields = some value) : HasPart (.object fields) value :=
  of_mem_fields (mem_of_field? h)

/-- What a key leads to is a part. -/
theorem get? {name : String} {part : Json} (h : value.get? name = some part) :
    HasPart value part := by
  cases value with
  | object fields => exact field? h
  | _ => exact absurd h nofun

/-- The items of what was looked up are parts. -/
theorem of_mem_asArray? {part : Option Json}
    (hpart : ∀ found, part = some found → HasPart root found)
    (h : value ∈ (part.bind asArray?).getD []) : HasPart root value := by
  match part with
  | some (.array items) => exact (hpart _ rfl).trans (of_mem_items h)
  | none | some .null | some (.bool _) | some (.number _) | some (.string _) | some (.object _) =>
    exact absurd h List.not_mem_nil

/-- The fields of what was looked up are parts. -/
theorem of_mem_asObject? {part : Option Json} {key : String}
    (hpart : ∀ found, part = some found → HasPart root found)
    (h : (key, value) ∈ (part.bind asObject?).getD []) : HasPart root value := by
  match part with
  | some (.object fields) => exact (hpart _ rfl).trans (of_mem_fields h)
  | none | some .null | some (.bool _) | some (.number _) | some (.string _) | some (.array _) =>
    exact absurd h List.not_mem_nil

/-- **What a reference names is a part of the document.** -/
theorem resolve? {reference : String} (h : Pointer.resolve? root reference = some value) :
    HasPart root value := by
  obtain ⟨segments, -, hwalk⟩ := Option.bind_eq_some_iff.1 h
  clear h
  induction segments generalizing root with
  | nil =>
    obtain rfl : root = value := Option.some.inj hwalk
    exact refl root
  | cons segment rest ih =>
    obtain ⟨next, hstep, hrest⟩ := Option.bind_eq_some_iff.1 hwalk
    refine trans ?_ (ih hrest)
    cases root with
    | object fields => exact field? hstep
    | array items =>
      obtain ⟨index, -, hitem⟩ := Option.bind_eq_some_iff.1 hstep
      exact of_mem_items (List.mem_of_getElem? hitem)
    | _ => exact absurd hstep nofun

end HasPart

end Json

end ApiContract
