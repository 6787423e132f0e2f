import ApiContract.Proofs.Json.Place
import ApiContract.Schema.Resolution

/-!
# Forms of schemas

The keywords of a schema that is no reference decide alone which fragments below it are resolved and
what becomes of them. `formOf` reads them as a `Form`, and `Schema.ofFields_eq` says that resolving
the schema is filling in that form.

## Why forms

Resolution looks at keywords in an order: `allOf`, then `oneOf` and `anyOf`, then the type, and
without a type what other keywords imply. A proof about resolution that followed this order would
look at every keyword again in every case. With forms, a fact about resolution has one case for each
form, in whatever order the keywords are looked at: a single branch, merged branches with or without
an object beside them, a choice, and a type.

## Results

* Filling in depends on the fragments only (`Form.node_congr`, `Schema.ofFields_congr`).
* The fragments are parts of the schema (`Schema.hasPart_of_mem_fragments`).
* A schema is *composed* if one of the three keywords has a list of branches, and then its type is
  not looked at (`Schema.formOf_of_not_isComposed`, `Schema.formOf_ne_typed_of_isComposed`).
* Up to the ceiling, a schema that is no reference resolves its fragments at the next depth
  (`Schema.resolve_eq_ofFields`).

What a schema says beside its form, such as descriptions, limits and listed values, is put to the
node in the end (`annotate`) and has no part in this.
-/

namespace ApiContract

/-- The keywords of an object schema. -/
structure RecordForm where
  properties : List (String × Json)
  required : NameSet
  /-- The fragment that further properties follow; `some none` if they may be anything. -/
  additional : Option (Option Json)

/-- What a schema without composition is made of. -/
inductive TypedForm where
  | list (items : Option Json)
  | record (form : RecordForm)
  | leaf (shape : Shape)

/-- What a schema that is no reference is made of. -/
inductive Form where
  /-- A single branch of `allOf`, with nothing beside it. -/
  | wrapped (branch : Json)
  /-- The branches of `allOf`, and the keywords of an object beside them. -/
  | merged (branches : List Json) (beside : Option RecordForm)
  /-- The branches of `oneOf` or `anyOf`. -/
  | choice (branches : List Json) (exclusive : Bool)
  | typed (form : TypedForm) (nullable : Bool)

variable (child : Json → Schema)

/-! ### Filling in -/

/-- The shape of an object schema, given how to resolve what is below it. -/
def RecordForm.shape (form : RecordForm) : Shape :=
  .object (form.properties.map fun entry ↦ ⟨entry.1, child entry.2⟩) form.required
    (form.additional.map fun value ↦ (value.map child).getD Schema.any)

/-- The shape of a schema without composition, given how to resolve what is below it. -/
def TypedForm.shape : TypedForm → Shape
  | list items => .array ((items.map child).getD Schema.any)
  | record form => form.shape child
  | leaf shape => shape

/-- The node of a schema, given how to resolve what is below it. -/
def Form.node : Form → Schema
  | wrapped branch => child branch
  | merged branches beside =>
    mergeAllOf (branches.map child ++ beside.toList.map fun form ↦ { shape := form.shape child })
  | choice branches exclusive => { shape := .union (branches.map child) exclusive }
  | typed form nullable => { shape := form.shape child, nullable := nullable }

/-! ### Reading the keywords -/

namespace Schema

/-- The keywords of an object schema among fields. -/
def recordForm (fields : List (String × Json)) : RecordForm where
  properties := match field? "properties" fields with
    | some (.object entries) => entries
    | _ => []
  required := declaredRequired fields
  additional := match field? "additionalProperties" fields with
    | some (.object entries) => some (some (.object entries))
    | some (.bool true) => some none
    | _ => none

/-- The form that the type of a schema gives it. -/
def typedForm (fields : List (String × Json)) : TypedForm :=
  match (declaredType fields).1 with
  | some "string" => .leaf .string
  | some "integer" => .leaf .integer
  | some "number" => .leaf .number
  | some "boolean" => .leaf .boolean
  | some "array" => .list (field? "items" fields)
  | some "object" => .record (recordForm fields)
  | some _ => .leaf .any
  | none =>
    if hasField "properties" fields || hasField "additionalProperties" fields then
      .record (recordForm fields)
    else .leaf (impliedShape fields)

/-- The form of a schema with `allOf`. -/
def composedForm (fields : List (String × Json)) (branches : List Json) : Form :=
  match branches, hasField "properties" fields || hasField "required" fields with
  | [only], false => .wrapped only
  | _, false => .merged branches none
  | _, true => .merged branches (some (recordForm fields))

/-- The form of a schema that is no reference. -/
def formOf (fields : List (String × Json)) : Form :=
  match field? "allOf" fields with
  | some (.array branches) => composedForm fields branches
  | _ =>
    match field? "oneOf" fields with
    | some (.array branches) => .choice branches true
    | _ =>
      match field? "anyOf" fields with
      | some (.array branches) => .choice branches false
      | _ => .typed (typedForm fields) (declaredType fields).2

variable {fields : List (String × Json)}

/-- The keywords that compose a schema of branches. -/
def compositionKeywords : List String := ["allOf", "oneOf", "anyOf"]

/-- A schema is composed of the branches at one of these keywords. -/
def IsComposed (fields : List (String × Json)) : Prop :=
  ∃ keyword ∈ compositionKeywords, ∃ branches, field? keyword fields = some (.array branches)

/-- Without branches, the type gives the form. -/
theorem formOf_of_not_isComposed (h : ¬IsComposed fields) :
    formOf fields = .typed (typedForm fields) (declaredType fields).2 := by
  have hno {keyword : String} {branches : List Json} (hmem : keyword ∈ compositionKeywords)
      (hfield : field? keyword fields = some (.array branches)) : False :=
    h ⟨keyword, hmem, branches, hfield⟩
  rw [formOf]
  split
  · next hfield => exact (hno (by decide) hfield).elim
  · split
    · next hfield => exact (hno (by decide) hfield).elim
    · split
      · next hfield => exact (hno (by decide) hfield).elim
      · rfl

/-- With branches, the type does not give the form. -/
theorem formOf_ne_typed_of_isComposed (h : IsComposed fields) (form : TypedForm) (nullable : Bool) :
    formOf fields ≠ .typed form nullable := by
  rw [formOf]
  split
  · unfold composedForm
    split <;> exact nofun
  · next hallOf =>
    split
    · exact nofun
    · next honeOf =>
      split
      · exact nofun
      · next hanyOf =>
        obtain ⟨keyword, hmem, branches, hfield⟩ := h
        simp only [compositionKeywords, List.mem_cons, List.not_mem_nil, or_false] at hmem
        rcases hmem with rfl | rfl | rfl
        · exact absurd hfield (hallOf branches)
        · exact absurd hfield (honeOf branches)
        · exact absurd hfield (hanyOf branches)

/-- The shape of an object is its form, filled in. -/
theorem objectShape_eq : objectShape child fields = (recordForm fields).shape child := by
  rw [objectShape, RecordForm.shape]
  congr 1
  · rw [declaredProperties, recordForm]
    split <;> simp [*]
  · rw [declaredAdditional, recordForm]
    split <;> simp [*]

/-- The shape of a schema without composition is its form, filled in. -/
theorem typedShape_eq : typedShape child fields = (typedForm fields).shape child := by
  rw [typedShape, typedForm, objectShape_eq]
  split <;> simp only [TypedForm.shape, *]
  split <;> rfl

/-- What `allOf` gives is its form, filled in. -/
theorem composed_eq (branches : List Json) :
    composed child fields branches =
      annotate fields ((composedForm fields branches).node child) := by
  unfold composed composedForm
  cases hasField "properties" fields || hasField "required" fields with
  | false =>
    match branches with
    | [only] => rfl
    | [] | _ :: _ :: _ => simp [Form.node]
  | true => simp [Form.node, objectShape_eq]

/-- **Resolving a schema that is no reference is filling in its form.** -/
theorem ofFields_eq :
    ofFields child fields = annotate fields ((formOf fields).node child) := by
  rw [ofFields, formOf]
  split
  · simp only [composed_eq, *]
  · split
    · simp only [Form.node, *]
    · split
      · simp only [Form.node, *]
      · simp only [typedShape_eq, Form.node, *]

end Schema

/-! ### The fragments below a schema -/

/-- The fragments that an object schema resolves. -/
def RecordForm.fragments (form : RecordForm) : List Json :=
  form.properties.map Prod.snd ++ form.additional.join.toList

/-- The fragments that a schema without composition resolves. -/
def TypedForm.fragments : TypedForm → List Json
  | list items => items.toList
  | record form => form.fragments
  | leaf _ => []

/-- The fragments that a schema resolves. -/
def Form.fragments : Form → List Json
  | wrapped branch => [branch]
  | merged branches beside => branches ++ beside.toList.flatMap RecordForm.fragments
  | choice branches _ => branches
  | typed form _ => form.fragments

theorem RecordForm.mem_fragments_of_property {form : RecordForm} {entry : String × Json}
    (h : entry ∈ form.properties) : entry.2 ∈ form.fragments :=
  List.mem_append_left _ (List.mem_map_of_mem h)

theorem RecordForm.mem_fragments_of_additional {form : RecordForm} {value : Json}
    (h : form.additional = some (some value)) : value ∈ form.fragments :=
  List.mem_append_right _ (by simp [h])

variable {child} {child' : Json → Schema}

/-- The shape of an object depends on its fragments only. -/
theorem RecordForm.shape_congr {form : RecordForm}
    (h : ∀ value ∈ form.fragments, child value = child' value) :
    form.shape child = form.shape child' := by
  rw [shape, shape]
  congr 1
  · exact List.map_congr_left fun entry hentry ↦ by rw [h _ (mem_fragments_of_property hentry)]
  · match hform : form.additional with
    | none | some none => rfl
    | some (some value) => simp [h value (mem_fragments_of_additional hform)]

theorem TypedForm.shape_congr {form : TypedForm}
    (h : ∀ value ∈ form.fragments, child value = child' value) :
    form.shape child = form.shape child' := by
  cases form with
  | list items =>
    cases items with
    | none => rfl
    | some items => simp [shape, h items (by simp [fragments])]
  | record form => exact RecordForm.shape_congr h
  | leaf shape => rfl

/-- **A node depends on the fragments of its form only.** -/
theorem Form.node_congr {form : Form} (h : ∀ value ∈ form.fragments, child value = child' value) :
    form.node child = form.node child' := by
  cases form with
  | wrapped branch => exact h branch (List.mem_singleton_self branch)
  | merged branches beside =>
    have hbranches : branches.map child = branches.map child' :=
      List.map_congr_left fun value hvalue ↦ h value (List.mem_append_left _ hvalue)
    have hbeside : (beside.toList.map fun form ↦ ({ shape := form.shape child } : Schema)) =
        beside.toList.map fun form ↦ { shape := form.shape child' } :=
      List.map_congr_left fun form hform ↦ by
        rw [RecordForm.shape_congr fun value hvalue ↦
          h value (List.mem_append_right _ (List.mem_flatMap.2 ⟨form, hform, hvalue⟩))]
    rw [node, node, hbranches, hbeside]
  | choice branches exclusive =>
    have hbranches : branches.map child = branches.map child' := List.map_congr_left h
    rw [node, node, hbranches]
  | typed form nullable => rw [node, node, TypedForm.shape_congr h]

namespace Schema

variable {fields : List (String × Json)} {value : Json}

/-- **Resolving a schema asks for its fragments only.** -/
theorem ofFields_congr (h : ∀ value ∈ (formOf fields).fragments, child value = child' value) :
    ofFields child fields = ofFields child' fields := by
  rw [ofFields_eq, ofFields_eq, Form.node_congr h]

/-- The fragments of an object schema are parts of it. -/
theorem hasPart_of_mem_recordForm (h : value ∈ (recordForm fields).fragments) :
    (Json.object fields).HasPart value := by
  rcases List.mem_append.1 h with hproperty | hadditional
  · obtain ⟨entry, hentry, rfl⟩ := List.mem_map.1 hproperty
    simp only [recordForm] at hentry
    split at hentry
    · next hfield => exact (Json.HasPart.field? hfield).trans (.of_mem_fields hentry)
    · exact absurd hentry List.not_mem_nil
  · simp only [recordForm] at hadditional
    split at hadditional
    · next hfield =>
      obtain rfl : value = _ := by simpa using hadditional
      exact .field? hfield
    all_goals exact absurd hadditional (by simp)

theorem hasPart_of_mem_typedForm (h : value ∈ (typedForm fields).fragments) :
    (Json.object fields).HasPart value := by
  unfold typedForm at h
  split at h
  case h_5 => exact .field? (Option.mem_toList.1 h)
  case h_6 => exact hasPart_of_mem_recordForm h
  case h_8 =>
    split at h
    · exact hasPart_of_mem_recordForm h
    · exact absurd h List.not_mem_nil
  all_goals exact absurd h List.not_mem_nil

/-- The fragments of `allOf` are its branches and those of the object beside them. -/
theorem mem_composedForm {branches : List Json}
    (h : value ∈ (composedForm fields branches).fragments) :
    value ∈ branches ∨ value ∈ (recordForm fields).fragments := by
  unfold composedForm at h
  split at h
  · exact .inl h
  · exact .inl (by simpa [Form.fragments] using h)
  · simpa [Form.fragments] using h

/-- **The fragments that a schema resolves are parts of it.** -/
theorem hasPart_of_mem_fragments (h : value ∈ (formOf fields).fragments) :
    (Json.object fields).HasPart value := by
  have hbranch : ∀ {keyword branches}, field? keyword fields = some (.array branches) →
      value ∈ branches → (Json.object fields).HasPart value := fun hfield hmem ↦
    (Json.HasPart.field? hfield).trans (.of_mem_items hmem)
  unfold formOf at h
  split at h
  · next hfield => exact (mem_composedForm h).elim (hbranch hfield) hasPart_of_mem_recordForm
  · split at h
    · next hfield => exact hbranch hfield h
    · split at h
      · next hfield => exact hbranch hfield h
      · exact hasPart_of_mem_typedForm h

/-! ### One level of resolution -/

variable {root : Json}

/-- With a level left, a reference is followed. -/
theorem resolveAt_reference (levels : Nat) {reference : String}
    (h : field? "$ref" fields = some (.string reference)) :
    resolveAt root (levels + 1) (.object fields) =
      ofReference root levels (resolveAt root levels) reference := by
  rw [resolveAt]
  simp only [h]

/-- With a level left, any other schema resolves its fragments. -/
theorem resolveAt_ofFields (levels : Nat)
    (h : ∀ reference, field? "$ref" fields ≠ some (.string reference)) :
    resolveAt root (levels + 1) (.object fields) = ofFields (resolveAt root levels) fields := by
  rw [resolveAt]
  split
  · next reference hreference => exact absurd hreference (h reference)
  · rfl

/-- Up to the ceiling, a schema that is no reference resolves its fragments at the next depth. -/
theorem resolve_eq_ofFields {depth : Nat} (hdepth : depth ≤ maxResolveDepth)
    (h : ∀ reference, field? "$ref" fields ≠ some (.string reference)) :
    resolve root (.object fields) depth =
      ofFields (fun part ↦ resolve root part (depth + 1)) fields := by
  rw [resolve, Nat.succ_sub hdepth, resolveAt_ofFields _ h]
  simp only [resolve, Nat.add_sub_add_right]

end Schema

end ApiContract
