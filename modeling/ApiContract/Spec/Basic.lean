import ApiContract.Http
import ApiContract.Schema.Basic

/-!
# Resolved contracts

A `Spec` is a contract as code generation sees it: operations with resolved schemas, models, tags
and security schemes.

Everything here is data of the contract and nothing is a name of generated code; how a name is
spelled in code is decided where code is generated. A response is kept under its status as it is
written, since `2XX` and `default` are statuses too. An operation always has a tag, `defaultTag` if
it declares none, and the first one is the tag that it is grouped under.

The types do not exclude two operations of one id or a parameter of the path that is optional.
`Proofs.Spec.WellFormed` says what holds of a contract that was built from a document.
-/

namespace ApiContract

/-- The tag of operations that declare none. -/
def defaultTag : String := "default"

/-- A parameter of an operation. -/
structure Parameter where
  name : String
  place : ParamPlace
  required : Bool
  schema : Schema
  description : Option String

/-- The body that an operation's request carries. -/
structure RequestBody where
  contentType : String
  schema : Schema
  required : Bool

/-- A response under a status as it is written: `200`, `2XX`, `default`. -/
structure Response where
  status : String
  description : Option String
  contentType : Option String
  schema : Option Schema

/-- Whether the response stands for success. -/
def Response.isSuccess (r : Response) : Bool := r.status.toList.head? == some '2'

/-- An operation: a method on a path. -/
structure Operation where
  id : String
  method : HttpMethod
  path : String
  summary : Option String
  description : Option String
  tags : List String
  parameters : List Parameter
  requestBody : Option RequestBody
  responses : List Response
  requiresAuth : Bool
  deprecated : Bool

namespace Operation

/-- The tag that an operation is grouped under. -/
def primaryTag (op : Operation) : String := op.tags.headD defaultTag

/-- The parameters at a place, in order. -/
def parametersAt (op : Operation) (place : ParamPlace) : List Parameter :=
  op.parameters.filter fun p ↦ p.place == place

/-- The operation's method and path. -/
def route (op : Operation) : Route := ⟨op.method, op.path⟩

end Operation

/-- A named schema of the contract. -/
structure Model where
  name : String
  description : Option String
  schema : Schema
  properties : List Property
  required : NameSet

/-- A way to authenticate. -/
structure SecurityScheme where
  name : String
  kind : String
  scheme : Option String
  bearerFormat : Option String
  place : Option String
  paramName : Option String
  deriving DecidableEq, Repr

/-- A resolved contract. -/
structure Spec where
  title : String
  version : String
  description : Option String
  baseUrl : String
  operations : List Operation
  models : List Model
  tags : List String
  securitySchemes : List SecurityScheme

namespace Spec

/-- The first model of a name. -/
def model? (spec : Spec) (name : String) : Option Model :=
  spec.models.find? fun m ↦ m.name == name

/-- The first operation of an id. -/
def operation? (spec : Spec) (id : String) : Option Operation :=
  spec.operations.find? fun op ↦ op.id == id

end Spec

end ApiContract
