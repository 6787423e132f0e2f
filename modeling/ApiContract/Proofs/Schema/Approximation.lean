import ApiContract.Schema.Merge
import Mathlib.Data.List.Forall2
import Mathlib.Data.Option.Basic

/-!
# Approximations of schemas

A schema approximates another one if it arises from it by giving up nodes as a whole: in the places
of these it admits anything, and elsewhere the two have the same shape, with the same properties in
the same order, the same required names and as many variants. What nodes say beside their shapes,
such as names, formats and limits, does not count.

## Representation

`Schema.Approximates` is an inductive relation, mutual with those on shapes and properties, whose
constructors are those of shapes and one more, for the shape that was given up. It is reflexive;
that it is transitive is not needed.

## Merging

Merging keeps approximations but for one case (`ObjectParts.Approximates.add`): a branch of which
nothing is known contributes nothing, so that a branch of objects must not be given up. If it is,
its properties are missing from the merged node, and that is still an object, with fewer properties
than it should have; such a node approximates nothing. `mergeAllOf_approximates` therefore asks of
each branch, beside the approximation, that it is an object if the other one is.

This is the relation that `Proofs.Schema.Ceiling` states the loss at a greater depth with.
-/

namespace ApiContract

mutual

/-- A schema approximates another one; what they say beside their shapes does not count. -/
inductive Schema.Approximates : Schema → Schema → Prop
  | of_shape {left right : Schema} (h : Shape.Approximates left.shape right.shape) :
      Schema.Approximates left right

/-- A shape approximates another one. -/
inductive Shape.Approximates : Shape → Shape → Prop
  | any (shape : Shape) : Shape.Approximates .any shape
  | string : Shape.Approximates .string .string
  | integer : Shape.Approximates .integer .integer
  | number : Shape.Approximates .number .number
  | boolean : Shape.Approximates .boolean .boolean
  | array {left right : Schema} (h : Schema.Approximates left right) :
      Shape.Approximates (.array left) (.array right)
  | object {left right : List Property} {required : NameSet} {leftMore rightMore : Option Schema}
      (hproperties : List.Forall₂ Property.Approximates left right)
      (hadditional : Option.Rel Schema.Approximates leftMore rightMore) :
      Shape.Approximates (.object left required leftMore) (.object right required rightMore)
  | union {left right : List Schema} {exclusive : Bool}
      (h : List.Forall₂ Schema.Approximates left right) :
      Shape.Approximates (.union left exclusive) (.union right exclusive)

/-- A property approximates another one of the same name. -/
inductive Property.Approximates : Property → Property → Prop
  | of_schema {name : String} {left right : Schema} (h : Schema.Approximates left right) :
      Property.Approximates ⟨name, left⟩ ⟨name, right⟩

end

/-! ### Every schema approximates itself -/

mutual

theorem Schema.Approximates.refl : ∀ s : Schema, s.Approximates s
  | ⟨shape, _, _, _, _, _, _⟩ => .of_shape (Shape.Approximates.refl shape)

theorem Shape.Approximates.refl : ∀ shape : Shape, shape.Approximates shape
  | .any => .any _
  | .string => .string
  | .integer => .integer
  | .number => .number
  | .boolean => .boolean
  | .array items => .array (Schema.Approximates.refl items)
  | .object properties _ additional =>
    .object (properties_approximate properties) (additional_approximates additional)
  | .union variants _ => .union (variants_approximate variants)

theorem properties_approximate :
    ∀ properties : List Property, List.Forall₂ Property.Approximates properties properties
  | [] => .nil
  | ⟨_, schema⟩ :: rest =>
    .cons (.of_schema (Schema.Approximates.refl schema)) (properties_approximate rest)

theorem additional_approximates :
    ∀ additional : Option Schema, Option.Rel Schema.Approximates additional additional
  | none => .none
  | some schema => .some (Schema.Approximates.refl schema)

theorem variants_approximate :
    ∀ variants : List Schema, List.Forall₂ Schema.Approximates variants variants
  | [] => .nil
  | schema :: rest => .cons (Schema.Approximates.refl schema) (variants_approximate rest)

end

/-! ### Merging -/

/-- Whether a schema is one of objects. -/
def Schema.isObject (s : Schema) : Bool :=
  match s.shape with
  | .object .. => true
  | _ => false

/-- A schema of objects has that shape. -/
theorem Schema.isObject_iff {s : Schema} :
    s.isObject ↔
      ∃ properties required additional, s.shape = .object properties required additional := by
  rw [isObject]
  split
  · next hshape => exact iff_of_true rfl ⟨_, _, _, hshape⟩
  · next hno => exact iff_of_false nofun fun ⟨_, _, _, hshape⟩ ↦ hno _ _ _ hshape

/-- Only a schema of objects is approximated by one. -/
theorem Schema.Approximates.isObject {left right : Schema} (h : left.Approximates right)
    (hleft : left.isObject) : right.isObject := by
  obtain ⟨properties, required, additional, hshape⟩ := isObject_iff.1 hleft
  obtain ⟨h⟩ := h
  rw [hshape] at h
  generalize hright : right.shape = shape at h
  cases h
  exact isObject_iff.2 ⟨_, _, _, hright⟩

/-- Where an object schema is not given up, none of its properties is. -/
theorem Schema.Approximates.properties {left right : Schema} (h : left.Approximates right)
    (hleft : left.isObject) :
    List.Forall₂ Property.Approximates left.properties right.properties := by
  obtain ⟨properties, required, additional, hshape⟩ := isObject_iff.1 hleft
  obtain ⟨h⟩ := h
  rw [Schema.properties, Schema.properties, hshape]
  rw [hshape] at h
  generalize right.shape = shape at h
  cases h with
  | object hproperties => exact hproperties

/-- The parts of an object schema approximate those of another one. -/
structure ObjectParts.Approximates (left right : ObjectParts) : Prop where
  properties : List.Forall₂ Property.Approximates left.properties right.properties
  required : left.required = right.required
  additional : Option.Rel Schema.Approximates left.additional right.additional

/-- Parts that approximate make a shape that does. -/
theorem ObjectParts.Approximates.toShape {left right : ObjectParts} (h : left.Approximates right) :
    left.toShape.Approximates right.toShape := by
  rw [ObjectParts.toShape, ObjectParts.toShape, h.required]
  exact .object h.properties h.additional

/-- Putting a property keeps approximations. -/
theorem putProperty_approximates {left right : List Property} {p q : Property}
    (h : List.Forall₂ Property.Approximates left right) (hproperty : p.Approximates q) :
    List.Forall₂ Property.Approximates (putProperty left p) (putProperty right q) := by
  induction h with
  | nil => exact .cons hproperty .nil
  | cons hhead hrest ih =>
    obtain ⟨hschema⟩ := hproperty
    obtain ⟨hold⟩ := hhead
    rw [putProperty, putProperty]
    split
    · exact .cons (.of_schema hschema) hrest
    · exact .cons (.of_schema hold) ih

theorem foldl_putProperty_approximates {left right more more' : List Property}
    (h : List.Forall₂ Property.Approximates left right)
    (hmore : List.Forall₂ Property.Approximates more more') :
    List.Forall₂ Property.Approximates
      (more.foldl putProperty left) (more'.foldl putProperty right) := by
  induction hmore generalizing left right with
  | nil => exact h
  | cons hproperty _ ih => exact ih (putProperty_approximates h hproperty)

/-- A branch that is no object adds nothing. -/
theorem ObjectParts.add_of_not_isObject {parts : ObjectParts} {branch : Schema}
    (h : ¬branch.isObject) : parts.add branch = parts := by
  rw [Schema.isObject_iff] at h
  rw [add]
  split
  · next hshape => exact absurd ⟨_, _, _, hshape⟩ h
  · rfl

/-- A branch may be given up unless it is one of objects. -/
theorem ObjectParts.Approximates.add {left right : ObjectParts} {branch branch' : Schema}
    (h : left.Approximates right) (hbranch : branch.Approximates branch')
    (hobject : branch'.isObject → branch.isObject) :
    (left.add branch).Approximates (right.add branch') := by
  by_cases hright : branch'.isObject
  · -- neither is given up, so that both contribute, property by property
    obtain ⟨properties, required, additional, hleftShape⟩ := Schema.isObject_iff.1 (hobject hright)
    obtain ⟨properties', required', additional', hrightShape⟩ := Schema.isObject_iff.1 hright
    obtain ⟨hshape⟩ := hbranch
    rw [hleftShape, hrightShape] at hshape
    cases hshape with
    | object hproperties hadditional =>
      simp only [ObjectParts.add, hleftShape, hrightShape]
      exact {
        properties := foldl_putProperty_approximates h.properties hproperties
        required := by rw [h.required]
        additional := by
          cases hadditional with
          | none => exact h.additional
          | some hschema => exact .some hschema }
  · -- neither contributes anything
    rw [ObjectParts.add_of_not_isObject hright,
      ObjectParts.add_of_not_isObject fun hleft ↦ hright (hbranch.isObject hleft)]
    exact h

/-- **Merging keeps approximations**, if no object branch is given up. -/
theorem mergeAllOf_approximates {left right : List Schema}
    (h : List.Forall₂ (fun branch branch' ↦ branch.Approximates branch' ∧
      (branch'.isObject → branch.isObject)) left right) :
    (mergeAllOf left).Approximates (mergeAllOf right) := by
  have hfold : ∀ {parts parts' : ObjectParts}, parts.Approximates parts' →
      (left.foldl ObjectParts.add parts).Approximates (right.foldl ObjectParts.add parts') := by
    induction h with
    | nil => exact fun hparts ↦ hparts
    | cons hbranch _ ih => exact fun hparts ↦ ih (hparts.add hbranch.1 hbranch.2)
  exact .of_shape (hfold ⟨.nil, rfl, .none⟩).toShape

end ApiContract
