import ApiContract.Json.Fields

/-!
# The records of a resolved contract

A resolved contract is written as records inside records. This module says which fields each kind of
record has, in which order, and what they hold.

A JSON text can name a field twice. A record takes none of its own fields twice
(`RecordKind.isPlain`); a name that is no field of it does not matter, and neither does what is
below a field that holds no record.

The fields of a schema depend on its shape, whose name is itself a field (`fieldsAmong`); the others
are the same for every tree. The lists here serve the check alone: `Spec.Codec` reads and writes the
same fields by name, and the two meet in `Spec.ofText?`.
-/

namespace ApiContract

/-- The kinds of records. -/
inductive RecordKind where
  | spec
  | operation
  | parameter
  | requestBody
  | response
  | model
  | property
  | securityScheme
  | schema
  | constraints
  deriving DecidableEq, Repr

/-- What a field holds. -/
inductive FieldContent where
  | value
  | record (kind : RecordKind)
  | records (kind : RecordKind)
  deriving DecidableEq, Repr

namespace RecordKind

/-- The fields of a record. Those of a schema are the ones for every shape. -/
def fields : RecordKind → List (String × FieldContent)
  | spec =>
    [("title", .value), ("version", .value), ("description", .value), ("base_url", .value),
      ("operations", .records operation), ("models", .records model), ("tags", .value),
      ("security_schemes", .records securityScheme)]
  | operation =>
    [("operation_id", .value), ("method", .value), ("path", .value), ("summary", .value),
      ("description", .value), ("tags", .value), ("parameters", .records parameter),
      ("request_body", .record requestBody), ("responses", .records response),
      ("requires_auth", .value), ("deprecated", .value)]
  | parameter =>
    [("name", .value), ("location", .value), ("required", .value), ("schema", .record schema),
      ("description", .value)]
  | requestBody => [("content_type", .value), ("schema", .record schema), ("required", .value)]
  | response =>
    [("status", .value), ("description", .value), ("content_type", .value),
      ("schema", .record schema)]
  | model =>
    [("name", .value), ("description", .value), ("schema", .record schema),
      ("properties", .records property), ("required", .value)]
  | property => [("name", .value), ("schema", .record schema)]
  | securityScheme =>
    [("name", .value), ("kind", .value), ("scheme", .value), ("bearer_format", .value),
      ("location", .value), ("param_name", .value)]
  | schema =>
    [("type", .value), ("format", .value), ("nullable", .value), ("description", .value),
      ("enum", .value), ("ref", .value), ("constraints", .record constraints)]
  | constraints =>
    [("min_length", .value), ("max_length", .value), ("pattern", .value), ("minimum", .value),
      ("maximum", .value), ("min_items", .value), ("max_items", .value)]

/-- The names of the fields of a record. -/
def names (kind : RecordKind) : List String := kind.fields.map Prod.fst

end RecordKind

/-! ### Shapes -/

/-- The names of the shapes. A number may stand for a name: its place in this list. -/
def Schema.shapeNames : List String :=
  ["string", "integer", "number", "boolean", "array", "object", "union", "any"]

/-- The name of a shape. -/
def Schema.shapeName? : Json → Option String
  | .string name => some name
  | .number (.int place) => if 0 ≤ place then shapeNames[place.toNat]? else none
  | _ => none

namespace RecordKind

/-- The fields that a schema has for its shape. -/
def shapeFields : String → List (String × FieldContent)
  | "array" => [("items", .record schema)]
  | "object" =>
    [("properties", .records property), ("required", .value), ("additional", .record schema)]
  | "union" => [("variants", .records schema), ("exclusive", .value)]
  | _ => []

/-- The fields that a record may have, given those that are there. -/
def fieldsAmong (given : List (String × Json)) : RecordKind → List (String × FieldContent)
  | schema =>
    schema.fields ++ (((field? "type" given).bind Schema.shapeName?).map shapeFields).getD []
  | kind => kind.fields

/-- Whether none of the given names stands twice among the fields. -/
def areOnce (names : List String) (given : List (String × Json)) : Bool :=
  names.all fun name ↦ (given.filter (·.1 == name)).length ≤ 1

/-! ### Records without repeated fields -/

mutual

/-- Whether a tree, taken as a record, names no field twice, neither itself nor in the records below
it. -/
def isPlain (kind : RecordKind) : Json → Bool
  | .object given =>
    areOnce ((kind.fieldsAmong given).map Prod.fst) given &&
      fieldsPlain (kind.fieldsAmong given) given
  | .array items => placesPlain kind.fields items
  | _ => true

/-- Whether the records of a list name no field twice. -/
def arePlain (kind : RecordKind) : Json → Bool
  | .array items => itemsPlain kind items
  | _ => true

/-- Whether the records under the given fields name no field twice. -/
def fieldsPlain (known : List (String × FieldContent)) : List (String × Json) → Bool
  | [] => true
  | (name, value) :: rest =>
    (match known.lookup name with
      | some (.record kind) => isPlain kind value
      | some (.records kind) => arePlain kind value
      | _ => true) && fieldsPlain known rest

/-- Whether the records at the places of fields name no field twice. -/
def placesPlain : List (String × FieldContent) → List Json → Bool
  | (_, content) :: known, value :: rest =>
    (match content with
      | .record kind => isPlain kind value
      | .records kind => arePlain kind value
      | .value => true) && placesPlain known rest
  | _, _ => true

/-- Whether items, taken as records, name no field twice. -/
def itemsPlain (kind : RecordKind) : List Json → Bool
  | [] => true
  | item :: rest => isPlain kind item && itemsPlain kind rest

end

end RecordKind

end ApiContract
