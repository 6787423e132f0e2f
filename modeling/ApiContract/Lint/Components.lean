import ApiContract.Lint.References
import ApiContract.Schema.Resolution

/-!
# Checks of component schemas

The schemas under `components.schemas`, as deep as they are resolved. References are left alone: the
check of references covers them, and their targets are checked in their own place.

A schema is checked by what stands in its own object (`checkShape`), and then the schemas directly
below it are checked with one level less (`subschemas`, `checkSchema`). A schema below the ceiling
is not looked at, since resolution does not look at it either.
-/

namespace ApiContract

namespace Lint

/-- The keywords that combine schemas. -/
def compositionKeywords : List String := ["allOf", "oneOf", "anyOf"]

/-- What is wrong with the object of a schema itself. -/
def checkShape (fields : List (String × Json)) (path : String) : List Finding :=
  let type := (Schema.declaredType fields).1
  (if type == some "array" && !hasField "items" fields then
      [⟨.arrayWithoutItems, path, "Array schema has no 'items'"⟩] else []) ++
  (if type.isSome || compositionKeywords.any (hasField · fields) then []
    else [⟨.untypedSchema, path,
      "Schema has no type or composition keyword; it will be generated as unknown"⟩])

/-- The schemas directly below a schema, with their places. -/
def subschemas (fields : List (String × Json)) (path : String) : List (String × Json) :=
  (((field? "properties" fields).bind Json.asObject?).getD []).map
      (fun (name, schema) ↦ (path ++ ".properties." ++ name, schema)) ++
    (match field? "items" fields with
      | some schema => [(child path "items", schema)]
      | none => []) ++
    (match field? "additionalProperties" fields with
      | some (.object entries) => [(child path "additionalProperties", .object entries)]
      | _ => []) ++
    compositionKeywords.flatMap fun keyword ↦
      ((((field? keyword fields).bind Json.asArray?).getD []).zipIdx).map fun (branch, i) ↦
        (item (path ++ "." ++ keyword) i, branch)

/-- The findings about a schema and what is below it, so many levels deep. -/
def checkSchema : Nat → String × Json → List Finding
  | 0, _ => []
  | levels + 1, (path, schema) =>
    match schema with
    | .object fields =>
      if hasField "$ref" fields then []
      else checkShape fields path ++ (subschemas fields path).flatMap (checkSchema levels)
    | .bool _ => []
    | _ => [⟨.invalidSchema, path, "Schema must be an object"⟩]

/-- The schemas under `components.schemas`. -/
def componentSchemas (doc : Json) : List (String × Json) :=
  (((doc.get? "components").bind fun c ↦ c.get? "schemas").bind Json.asObject?).getD []

/-- The findings about all component schemas. -/
def checkComponents (doc : Json) : List Finding :=
  (componentSchemas doc).flatMap fun (name, schema) ↦
    checkSchema (maxResolveDepth + 1) ("components.schemas." ++ name, schema)

end Lint

end ApiContract
