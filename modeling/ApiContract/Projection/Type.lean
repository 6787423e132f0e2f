import ApiContract.Identifier
import ApiContract.Schema.Basic
import ApiContract.TypeScript.Syntax

/-!
# Types of schemas

The TypeScript type of the values that a schema admits. A named schema has the type declared under
its name, whatever is below it; a schema that lists its values has the union of their literal types;
every other schema has the type of its shape. A nullable schema has `null` besides.

The projection follows the structure of schemas and of nothing else: no declaration is looked up,
and limits and formats do not show in a type. `null` is added at one place for all kinds of schemas
(`typeOrNull`); among listed values it is left out, since there it means that the schema is nullable
(`listed`).
-/

namespace ApiContract

open TypeScript

/-- The name under which the type of a component is declared. -/
def typeName (component : String) : String := Identifier.pascalCase component

/-- The values that a schema lists, without `null`, which counts as nullability alone. -/
def listed (values : List Json) : List Json := values.filter fun v ↦ !v.isNull

/-- A type and, if it is so marked, `null`. -/
def typeOrNull (nullable : Bool) (type : TypeExpr) : TypeExpr :=
  if nullable then type.orNull else type

namespace Schema

mutual

/-- The type of the values that a schema admits. -/
def toType : Schema → TypeExpr
  | ⟨shape, _, nullable, _, enumValues, refName, _⟩ =>
    typeOrNull nullable <|
      match refName, listed enumValues with
      | some name, _ => .named (typeName name)
      | none, value :: rest => .ofMembers ((value :: rest).map .literal)
      | none, [] => shapeType shape

/-- The type of the values of a shape. -/
def shapeType : Shape → TypeExpr
  | .any => .keyword "unknown"
  | .string => .keyword "string"
  | .integer | .number => .keyword "number"
  | .boolean => .keyword "boolean"
  | .array items => .array items.toType
  | .object [] _ additional => .record (valueType additional)
  | .object (property :: rest) required _ => .object (propertyMembers required (property :: rest))
  | .union [] _ => .keyword "unknown"
  | .union (variant :: rest) _ => .ofMembers (variantTypes (variant :: rest))

/-- The type of the values that an object without properties admits. -/
def valueType : Option Schema → TypeExpr
  | some schema => schema.toType
  | none => .keyword "unknown"

/-- The members of an object type: what is not required may be left out. -/
def propertyMembers (required : NameSet) : List Property → List Member
  | [] => []
  | ⟨name, schema⟩ :: rest =>
    { name, type := schema.toType, isOptional := !required.contains name
      doc := schema.description } :: propertyMembers required rest

/-- The types of several schemas. -/
def variantTypes : List Schema → List TypeExpr
  | [] => []
  | variant :: rest => variant.toType :: variantTypes rest

end

/-- The members of a schema whose type is an object type and nothing else, so that it can be
declared as an interface. -/
def interfaceMembers? (schema : Schema) : Option (List Member) :=
  if schema.refName.isSome || schema.nullable || !schema.enumValues.isEmpty then none
  else
    match shapeType schema.shape with
    | .object members => some members
    | _ => none

end Schema

end ApiContract
