import ApiContract.Json.Basic
import ApiContract.NameSet

/-!
# Resolved schemas

A `Schema` is a schema of a contract with its references followed and its compositions merged. What
it admits is its `Shape`; the other fields hold for every shape. A node that was reached through a
reference keeps the name of the referenced component, and generated code then speaks of that name
and not of what is below.

## Representation

Schemas, shapes and properties are mutually inductive and finite: a recursive schema of a document
is unfolded to a ceiling, where it ends in the schema that admits anything. A property has its
schema inside it, and its name is a field and not a key; that names are distinct is a property of
the schemas that resolution gives (`Proofs.Schema.WellFormed`), not of the type.

## References

`references` lists the names that a schema refers to, in the order of the document. Below a named
node nothing counts, for that is the business of the component with the name. The graph of models
and the check for dangling names both go by these lists.
-/

namespace ApiContract

/-- Limits on a value, as the document states them. -/
structure Constraints where
  minLength : Option Nat := none
  maxLength : Option Nat := none
  pattern : Option String := none
  minimum : Option Binary64 := none
  maximum : Option Binary64 := none
  minItems : Option Nat := none
  maxItems : Option Nat := none
  deriving DecidableEq, Repr

/-- Whether there is no limit at all. -/
def Constraints.isEmpty (c : Constraints) : Bool := decide (c = {})

mutual

/-- A resolved schema. -/
structure Schema where
  shape : Shape
  format : Option String := none
  nullable : Bool := false
  description : Option String := none
  /-- The values admitted, if the schema lists them. -/
  enumValues : List Json := []
  /-- The component that the node was reached through. -/
  refName : Option String := none
  constraints : Constraints := {}

/-- What kind of value a schema admits. -/
inductive Shape where
  /-- Anything: an untyped schema, a reference without target, or a place below the ceiling. -/
  | any
  | string
  | integer
  | number
  | boolean
  | array (items : Schema)
  | object (properties : List Property) (required : NameSet) (additional : Option Schema)
  /-- One of several schemas; `exclusive` if exactly one may hold. -/
  | union (variants : List Schema) (exclusive : Bool)

/-- A property of an object schema. -/
structure Property where
  name : String
  schema : Schema

end

namespace Schema

/-- The schema that admits anything. -/
def any : Schema := { shape := .any }

instance : Inhabited Schema := ⟨any⟩

/-- Whether nothing is known of the node, not even a name. -/
def isAny (s : Schema) : Bool :=
  match s.shape with
  | .any => s.refName.isNone
  | _ => false

/-- The properties of an object schema; any other has none. -/
def properties (s : Schema) : List Property :=
  match s.shape with
  | .object properties _ _ => properties
  | _ => []

/-- The required names of an object schema; any other has none. -/
def required (s : Schema) : NameSet :=
  match s.shape with
  | .object _ required _ => required
  | _ => ∅

mutual

/-- The names that a schema refers to, in the order of the document; below a named node nothing
counts. -/
def references : Schema → List String
  | ⟨shape, _, _, _, _, refName, _⟩ =>
    match refName with
    | some name => [name]
    | none => shapeReferences shape

/-- The names that the parts of a shape refer to. -/
def shapeReferences : Shape → List String
  | .any | .string | .integer | .number | .boolean => []
  | .array items => items.references
  | .object properties _ additional =>
    propertyReferences properties ++ optionReferences additional
  | .union variants _ => variantReferences variants

/-- The names that properties refer to. -/
def propertyReferences : List Property → List String
  | [] => []
  | ⟨_, schema⟩ :: rest => schema.references ++ propertyReferences rest

/-- The names that a list of schemas refers to. -/
def variantReferences : List Schema → List String
  | [] => []
  | schema :: rest => schema.references ++ variantReferences rest

/-- The names that a schema refers to, if there is one. -/
def optionReferences : Option Schema → List String
  | none => []
  | some schema => schema.references

end

/-- The set of the names that a schema refers to. -/
def referencedNames (s : Schema) : NameSet := NameSet.ofList s.references

end Schema

end ApiContract
