import ApiContract.Artifact.Declarations
import ApiContract.Artifact.Surface

/-!
# The module of the HTTP client

A function for every operation, over one instance of `axios`. The module is built as a list of
declarations, in the order in which it is printed: the comment at its head, the imports, the address
of the service, the types of the models, the types of the operations group by group, and then the
client itself.

## What a function does

The function of an operation takes the values of the placeholders out of its parameters
(`pathBinding`), so that what is left of them are the parameters of the query. It sends the request
with a template of the path as its address and answers with the data of the response. Every local
name of a function is a name of the parameters or one of the few that the module chooses itself; no
check holds the two apart.

## What can fail

An operation whose id has no letter or digit has no name, and an operation with a placeholder for a
whole segment that no parameter fills has no address (`unboundPlaceholder?`). Only placeholders of
whole segments are looked at there (`placeholders`), while the template of the path fills every
placeholder (`PathPiece.scan`): the two readings differ, and `Proofs.Artifact.PathBinding` says what
holds between them.
-/

namespace ApiContract.ClientModule

open TypeScript

/-- The name of the instance that all functions use. -/
def instanceName : String := "http"

/-- The declarations in front of the models. -/
def opening (plan : Plan) : List Declaration :=
  [ plan.header "HTTP client"
  , .imports (some "axios") [] "axios" false
  , .imports none ["AxiosInstance", "AxiosRequestConfig"] "axios" true
  , plan.baseUrlDeclaration ]

/-- The part about the models, if there are any. -/
def models (plan : Plan) : List Declaration :=
  if plan.modelCount = 0 then [] else .banner "Models" :: plan.modelDeclarations

/-- The types of a group of operations, and the surfaces of the operations. -/
def group (helpers : HelperTable) (g : OperationGroup) :
    Except Failure (List Declaration × List Surface) := do
  let parts ← g.operations.mapM fun op ↦ do
    let s ← Surface.ofOperation helpers op
    let types ← s.typeDeclarations helpers
    pure (types, s)
  return (.banner ("Operation types: " ++ g.tag) :: parts.flatMap Prod.fst, parts.map Prod.snd)

/-- The instance that all functions use. -/
def instanceDeclaration : Declaration :=
  .const instanceName (some (.named "AxiosInstance"))
    ((Expr.identifier "axios").method "create"
      [.object [.keyed "baseURL" (.identifier baseUrlName)]]) none

/-- The header that carries the token. -/
def authHeader : Expr :=
  .index (.member (.member (.member (.identifier instanceName) "defaults") "headers") "common")
    (.text "Authorization")

/-- The function that sets or clears the token. -/
def tokenSetter : Declaration :=
  .function "setAuthToken" false [.required "token" (TypeExpr.keyword "string").orNull]
    (some (.keyword "void"))
    [ .if (.identifier "token")
        [.assign authHeader (.template [.text "Bearer ", .hole (.identifier "token")])]
        [.expr (.unary "delete" authHeader)] ]
    (some "Set the bearer token sent with every request; \x60null\x60 clears it")

/-- The names of the placeholders that fill whole segments of a path. -/
def placeholders (path : String) : List String :=
  ((path.toList.splitOn '/').filterMap (Text.between? '\x7b' '\x7d')).map String.ofList

/-- The first placeholder in an operation's path that no parameter fills. -/
def unboundPlaceholder? (op : Operation) : Option String :=
  (placeholders op.path).find? fun name ↦ !(op.parametersAt .path).any fun p ↦ p.name == name

/-- The statement that takes the values of the placeholders out of the parameters. What is left are
the parameters of the query. -/
def pathBinding (op : Operation) (hasQuery : Bool) : Statement :=
  .const
    (.destructure ((op.parametersAt .path).map fun p ↦ (p.name, Identifier.binding p.name))
      (if hasQuery then some "query" else none))
    (.identifier "params")

/-- What the request says about the parameters of the query. -/
def queryEntries (hasPath hasQuery : Bool) : List Entry :=
  match hasPath, hasQuery with
  | true, true => [.keyed "params" (.identifier "query")]
  | false, true => [.shorthand "params"]
  | _, false => []

/-- The function that calls an operation. -/
def function (helpers : HelperTable) (s : Surface) : Except Failure Declaration := do
  let op := s.op
  let hasQuery ← helpers.flag "hasQueryParams" op
  if let some name := unboundPlaceholder? op then throw (.render (.unboundPlaceholder op.id name))
  let url ← helpers.expr "pathTemplate" op
  let hasPath ← helpers.flag "hasPathParams" op
  -- What stands behind the spread wins over what the caller configures.
  let request :=
    [ .spread (.identifier "config"), .keyed "method" (.text op.method.display)
    , .keyed "url" url ] ++ queryEntries hasPath hasQuery ++
      (if s.body.isSome then [.keyed "data" (.identifier "body")] else [])
  let responseType := TypeExpr.named s.responseName
  let call := Expr.call (.member (.identifier instanceName) "request") [responseType]
    [.object request]
  let doc ← s.doc helpers
  return .function s.functionName true
    (s.callParams ++ [.optional "config" (.named "AxiosRequestConfig")])
    (some (.generic "Promise" [responseType]))
    ((if hasPath then [pathBinding op hasQuery] else []) ++
      [ .const (.name "response") (.unary "await" call)
      , .return (.member (.identifier "response") "data") ])
    (some doc)

/-- The object that gathers the functions. -/
def gathering (surfaces : List Surface) : Declaration :=
  .const "apiClient" none (.object (surfaces.map fun s ↦ .shorthand s.functionName)) none

/-- The declarations of the module. -/
def declarations (plan : Plan) (helpers : HelperTable) : Except Failure (List Declaration) := do
  let groups ← plan.groups.mapM (group helpers)
  let surfaces := groups.flatMap Prod.snd
  let functions ← surfaces.mapM (function helpers)
  return opening plan ++ models plan ++ groups.flatMap Prod.fst ++
    [.banner "Client", instanceDeclaration] ++
    (if plan.hasSecurity then [tokenSetter] else []) ++ functions ++ [gathering surfaces]

end ApiContract.ClientModule
