import ApiContract.Artifact.HelperTable
import ApiContract.Artifact.Plan

/-!
# Surfaces of operations

The names and signatures that artifacts have for an operation: the function that calls it, the types
of its parameters, of its body and of its response.

A `Surface` is made once for each operation, from its id: the base of its types' names is the id in
Pascal case, the name of its function the id in camel case, made safe for a binding. The one way to
fail is an id without a letter or digit. The parameters of the path and of the query are arguments
of the function, one object of them; a body is another argument. Parameters in other places do not
show: they are left to the configuration that a caller may hand on.

The type of the response is that of the first response which stands for success, or `void`.
-/

namespace ApiContract

open TypeScript

/-- The names that are generated for an operation. -/
structure Surface where
  op : Operation
  /-- The function that calls the operation. -/
  functionName : String
  /-- What the names of the operation's types begin with. -/
  typeBase : String
  /-- The type of the parameters, if the operation has any in its path or query. -/
  paramsName : Option String
  /-- The type of the body, and whether the body must be there. -/
  body : Option (String × Bool)
  responseName : String

namespace Surface

/-- The surface of an operation, whose id has to have a letter or digit. -/
def ofOperation (helpers : HelperTable) (op : Operation) : Except Failure Surface := do
  let base ← helpers.text "pascalCase" op.id
  if base.isEmpty then throw (.render (.namelessOperation op.id op.route))
  let name ← helpers.text "camelCase" op.id
  let inPath ← helpers.flag "hasPathParams" op
  let hasParams ← if inPath then pure true else helpers.flag "hasQueryParams" op
  return {
    op
    functionName := Identifier.binding name
    typeBase := base
    paramsName := if hasParams then some (base ++ "Params") else none
    body := op.requestBody.map fun body ↦ (base ++ "Body", body.required)
    responseName := base ++ "Response" }

/-- The member for a parameter. -/
def parameterMember (parameter : Parameter) : Member :=
  { name := parameter.name, type := parameter.schema.toType
    isOptional := !parameter.required, doc := parameter.description }

/-- The declaration of the type of the parameters. -/
def paramsDeclarations (s : Surface) : List Declaration :=
  match s.paramsName with
  | some name =>
    [.interface name ((s.op.parameters.filter Plan.isSurfaceParameter).map parameterMember) none]
  | none => []

/-- The declaration of the type of the body. -/
def bodyDeclarations (s : Surface) : List Declaration :=
  match s.body, s.op.requestBody with
  | some (name, _), some body => [.alias name body.schema.toType none]
  | _, _ => []

/-- The declarations of an operation's types. -/
def typeDeclarations (s : Surface) (helpers : HelperTable) : Except Failure (List Declaration) := do
  let response ← helpers.response "successResponse" s.op
  let type := match response.bind Response.schema with
    | some schema => schema.toType
    | none => .keyword "void"
  return s.paramsDeclarations ++ s.bodyDeclarations ++ [.alias s.responseName type none]

/-- The parameters that a caller has to give: those of the operation, then the body. -/
def callParams (s : Surface) : List Param :=
  (match s.paramsName with
    | some name => [.required "params" (.named name)]
    | none => []) ++
  (match s.body with
    | some (name, true) => [.required "body" (.named name)]
    | some (name, false) => [.optional "body" (.named name)]
    | none => [])

/-- What the comment on an operation's function says: its summary, or its method and path, and
whether it needs authentication or is deprecated. -/
def doc (s : Surface) (helpers : HelperTable) : Except Failure String := do
  let requiresAuth ← helpers.flag "requiresAuth" s.op
  return String.intercalate "\n" <|
    [s.op.summary.getD s.op.route.display] ++
      (if requiresAuth then ["Requires authentication."] else []) ++
      (if s.op.deprecated then ["@deprecated"] else [])

end Surface

end ApiContract
