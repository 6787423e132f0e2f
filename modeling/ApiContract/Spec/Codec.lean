import ApiContract.Spec.Basic
import ApiContract.Spec.Record

/-!
# Resolved contracts as JSON

`Spec.toJson` writes a resolved contract as a JSON tree and `Spec.ofJson?` reads one. A schema is
one object: its shape under `type` with the parts of that shape, then the fields that hold for every
shape. What is absent, false or empty is left out, except the properties and required names of an
object schema.

## Writing

Every record has a function that lists its fields, in the order in which they are written. The
functions on schemas follow their structure, with functions of their own for lists.

## Reading

A reader looks a record's fields up by name. Schemas are read with a bound on their nesting
(`Schema.readWithin`), for which the nesting of the tree is always enough, so `ofJson?` computes the
bound from the tree. Fields that are unknown are passed over.

That a contract is read back from what was written for it is in `Proofs.Spec.RoundTrip`.
-/

namespace ApiContract

open Json

/-! ### Writing -/

namespace Constraints

/-- The limits that are there. -/
def toFields (c : Constraints) : List (String × Json) :=
  optional "min_length" ofNat c.minLength ++
    optional "max_length" ofNat c.maxLength ++
    optional "pattern" string c.pattern ++
    optional "minimum" (fun x ↦ number (.float x)) c.minimum ++
    optional "maximum" (fun x ↦ number (.float x)) c.maximum ++
    optional "min_items" ofNat c.minItems ++
    optional "max_items" ofNat c.maxItems

end Constraints

namespace Schema

/-- The fields of a schema that do not depend on its shape. -/
def commonFields (format : Option String) (nullable : Bool) (description : Option String)
    (enumValues : List Json) (refName : Option String) (constraints : Constraints) :
    List (String × Json) :=
  optional "format" string format ++
    (if nullable then always "nullable" (bool true) else []) ++
    optional "description" string description ++
    (if enumValues.isEmpty then [] else always "enum" (array enumValues)) ++
    optional "ref" string refName ++
    (if constraints.isEmpty then [] else always "constraints" (object constraints.toFields))

mutual

/-- A schema as JSON. -/
def toJson : Schema → Json
  | ⟨shape, format, nullable, description, enumValues, refName, constraints⟩ =>
    object (shapeFields shape ++
      commonFields format nullable description enumValues refName constraints)

/-- The fields that a shape has. -/
def shapeFields : Shape → List (String × Json)
  | .any => [("type", string "any")]
  | .string => [("type", string "string")]
  | .integer => [("type", string "integer")]
  | .number => [("type", string "number")]
  | .boolean => [("type", string "boolean")]
  | .array items => [("type", string "array"), ("items", items.toJson)]
  | .object properties required additional =>
    [("type", string "object"), ("properties", array (propertiesJson properties)),
      ("required", strings required.toList)] ++ additionalFields additional
  | .union variants exclusive =>
    [("type", string "union"), ("variants", array (variantsJson variants)),
      ("exclusive", bool exclusive)]

/-- Properties as JSON. -/
def propertiesJson : List Property → List Json
  | [] => []
  | ⟨name, schema⟩ :: rest =>
    object [("name", string name), ("schema", schema.toJson)] :: propertiesJson rest

/-- Schemas as JSON. -/
def variantsJson : List Schema → List Json
  | [] => []
  | schema :: rest => schema.toJson :: variantsJson rest

/-- What an object schema admits beside its properties, as a field. -/
def additionalFields : Option Schema → List (String × Json)
  | none => []
  | some schema => [("additional", schema.toJson)]

end

end Schema

/-- A parameter as JSON. -/
def Parameter.toJson (p : Parameter) : Json :=
  object (always "name" (string p.name) ++ always "location" (string p.place.name) ++
    always "required" (bool p.required) ++ always "schema" p.schema.toJson ++
    optional "description" string p.description)

/-- A request body as JSON. -/
def RequestBody.toJson (b : RequestBody) : Json :=
  object [("content_type", string b.contentType), ("schema", b.schema.toJson),
    ("required", bool b.required)]

/-- A response as JSON. -/
def Response.toJson (r : Response) : Json :=
  object (always "status" (string r.status) ++ optional "description" string r.description ++
    optional "content_type" string r.contentType ++ optional "schema" Schema.toJson r.schema)

/-- An operation as JSON. -/
def Operation.toJson (op : Operation) : Json :=
  object (always "operation_id" (string op.id) ++ always "method" (string op.method.key) ++
    always "path" (string op.path) ++ optional "summary" string op.summary ++
    optional "description" string op.description ++ always "tags" (strings op.tags) ++
    always "parameters" (array (op.parameters.map Parameter.toJson)) ++
    optional "request_body" RequestBody.toJson op.requestBody ++
    always "responses" (array (op.responses.map Response.toJson)) ++
    always "requires_auth" (bool op.requiresAuth) ++ always "deprecated" (bool op.deprecated))

/-- A model as JSON. -/
def Model.toJson (m : Model) : Json :=
  object (always "name" (string m.name) ++ optional "description" string m.description ++
    always "schema" m.schema.toJson ++
    always "properties" (array (Schema.propertiesJson m.properties)) ++
    always "required" (strings m.required.toList))

/-- A security scheme as JSON. -/
def SecurityScheme.toJson (s : SecurityScheme) : Json :=
  object (always "name" (string s.name) ++ always "kind" (string s.kind) ++
    optional "scheme" string s.scheme ++ optional "bearer_format" string s.bearerFormat ++
    optional "location" string s.place ++ optional "param_name" string s.paramName)

namespace Spec

/-- The fields of a resolved contract. -/
def toFields (spec : Spec) : List (String × Json) :=
  always "title" (string spec.title) ++ always "version" (string spec.version) ++
    optional "description" string spec.description ++ always "base_url" (string spec.baseUrl) ++
    always "operations" (array (spec.operations.map Operation.toJson)) ++
    always "models" (array (spec.models.map Model.toJson)) ++
    always "tags" (strings spec.tags) ++
    always "security_schemes" (array (spec.securitySchemes.map SecurityScheme.toJson))

/-- A resolved contract as JSON. -/
def toJson (spec : Spec) : Json := object spec.toFields

end Spec

/-! ### Reading -/

/-- Limits read from JSON. -/
def Constraints.ofJson? (value : Json) : Option Constraints := do
  let fields ← record? RecordKind.constraints.names value
  return {
    minLength := ← optional? nat? "min_length" fields
    maxLength := ← optional? nat? "max_length" fields
    pattern := ← optional? asString? "pattern" fields
    minimum := ← optional? float? "minimum" fields
    maximum := ← optional? float? "maximum" fields
    minItems := ← optional? nat? "min_items" fields
    maxItems := ← optional? nat? "max_items" fields }

namespace Schema

/-- A schema read from the fields of an object, with its shape given. -/
def withCommon? (fields : List (String × Json)) (shape : Shape) : Option Schema := do
  return {
    shape := shape
    format := ← optional? asString? "format" fields
    nullable := ← defaulted? asBool? false "nullable" fields
    description := ← optional? asString? "description" fields
    enumValues := ← defaulted? asArray? [] "enum" fields
    refName := ← optional? asString? "ref" fields
    constraints := ← defaulted? Constraints.ofJson? {} "constraints" fields }

/-- The name and the schema of a property that is written as a record. -/
def propertyParts? (value : Json) : Option (String × Json) :=
  (record? RecordKind.property.names value).bind fun fields ↦
    (required? asString? "name" fields).bind fun name ↦
      (field? "schema" fields).map fun schema ↦ (name, schema)

/-- A property read with a given reader of schemas. -/
def property? (read : Json → Option Schema) (value : Json) : Option Property :=
  (propertyParts? value).bind fun (name, schema) ↦ (read schema).map fun s ↦ ⟨name, s⟩

/-- A shape read from the fields of an object with a given reader of schemas. -/
def shape? (read : Json → Option Schema) (fields : List (String × Json)) : Option Shape := do
  match ← required? shapeName? "type" fields with
  | "any" => return .any
  | "string" => return .string
  | "integer" => return .integer
  | "number" => return .number
  | "boolean" => return .boolean
  | "array" => return .array (← required? read "items" fields)
  | "object" =>
    return .object (← required? (list? (property? read)) "properties" fields)
      (NameSet.ofList (← required? (list? asString?) "required" fields))
      (← optional? read "additional" fields)
  | "union" =>
    return .union (← required? (list? read) "variants" fields)
      (← required? asBool? "exclusive" fields)
  | _ => none

/-- Reads a schema that nests at most so deep. -/
def readWithin : Nat → Json → Option Schema
  | 0, _ => none
  | levels + 1, value => do
    match value with
    | .object fields => withCommon? fields (← shape? (readWithin levels) fields)
    | _ => none

mutual

/-- How deep a tree nests. -/
def nesting : Json → Nat
  | .array items => nestingOfItems items + 1
  | .object fields => nestingOfFields fields + 1
  | _ => 0

/-- How deep items nest. -/
def nestingOfItems : List Json → Nat
  | [] => 0
  | item :: rest => max (nesting item) (nestingOfItems rest)

/-- How deep the values of fields nest. -/
def nestingOfFields : List (String × Json) → Nat
  | [] => 0
  | (_, value) :: rest => max (nesting value) (nestingOfFields rest)

end

/-- A schema read from JSON. -/
def ofJson? (value : Json) : Option Schema := readWithin (nesting value) value

end Schema

/-- A property read from JSON. -/
def Property.ofJson? (value : Json) : Option Property := Schema.property? Schema.ofJson? value

/-- A parameter read from JSON. -/
def Parameter.ofJson? (value : Json) : Option Parameter := do
  let fields ← record? RecordKind.parameter.names value
  return {
    name := ← required? asString? "name" fields
    place := ← (← required? word? "location" fields) |> ParamPlace.ofName?
    required := ← required? asBool? "required" fields
    schema := ← required? Schema.ofJson? "schema" fields
    description := ← optional? asString? "description" fields }

/-- A request body read from JSON. -/
def RequestBody.ofJson? (value : Json) : Option RequestBody := do
  let fields ← record? RecordKind.requestBody.names value
  return {
    contentType := ← required? asString? "content_type" fields
    schema := ← required? Schema.ofJson? "schema" fields
    required := ← required? asBool? "required" fields }

/-- A response read from JSON. -/
def Response.ofJson? (value : Json) : Option Response := do
  let fields ← record? RecordKind.response.names value
  return {
    status := ← required? asString? "status" fields
    description := ← optional? asString? "description" fields
    contentType := ← optional? asString? "content_type" fields
    schema := ← optional? Schema.ofJson? "schema" fields }

/-- An operation read from JSON. -/
def Operation.ofJson? (value : Json) : Option Operation := do
  let fields ← record? RecordKind.operation.names value
  return {
    id := ← required? asString? "operation_id" fields
    method := ← (← required? word? "method" fields) |> HttpMethod.ofKey?
    path := ← required? asString? "path" fields
    summary := ← optional? asString? "summary" fields
    description := ← optional? asString? "description" fields
    tags := ← required? (list? asString?) "tags" fields
    parameters := ← required? (list? Parameter.ofJson?) "parameters" fields
    requestBody := ← optional? RequestBody.ofJson? "request_body" fields
    responses := ← required? (list? Response.ofJson?) "responses" fields
    requiresAuth := ← required? asBool? "requires_auth" fields
    deprecated := ← required? asBool? "deprecated" fields }

/-- A model read from JSON. -/
def Model.ofJson? (value : Json) : Option Model := do
  let fields ← record? RecordKind.model.names value
  return {
    name := ← required? asString? "name" fields
    description := ← optional? asString? "description" fields
    schema := ← required? Schema.ofJson? "schema" fields
    properties := ← required? (list? Property.ofJson?) "properties" fields
    required := NameSet.ofList (← required? (list? asString?) "required" fields) }

/-- A security scheme read from JSON. -/
def SecurityScheme.ofJson? (value : Json) : Option SecurityScheme := do
  let fields ← record? RecordKind.securityScheme.names value
  return {
    name := ← required? asString? "name" fields
    kind := ← required? asString? "kind" fields
    scheme := ← optional? asString? "scheme" fields
    bearerFormat := ← optional? asString? "bearer_format" fields
    place := ← optional? asString? "location" fields
    paramName := ← optional? asString? "param_name" fields }

/-- A resolved contract read from JSON. -/
def Spec.ofJson? (value : Json) : Option Spec := do
  let fields ← record? RecordKind.spec.names value
  return {
    title := ← required? asString? "title" fields
    version := ← required? asString? "version" fields
    description := ← optional? asString? "description" fields
    baseUrl := ← required? asString? "base_url" fields
    operations := ← required? (list? Operation.ofJson?) "operations" fields
    models := ← required? (list? Model.ofJson?) "models" fields
    tags := ← required? (list? asString?) "tags" fields
    securitySchemes := ← required? (list? SecurityScheme.ofJson?) "security_schemes" fields }

end ApiContract
