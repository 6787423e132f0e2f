import ApiContract.Artifact.Declarations
import ApiContract.Artifact.Surface

/-!
# The module of hooks

A hook for every operation, over the functions of the client: a query for an operation that only
reads, a mutation for any other. Queries are cached under keys that begin with their tag, and a
mutation invalidates all queries of its tag.

## Keys

`queryKeys` has an entry for each group, under the tag's name in camel case. In it `all` is the key
that every key of the group begins with, and each query has an entry that makes its key from its
arguments. The keys begin with the tag as it is written, but the entry is found under a name of it,
which two tags can share; `Proofs.Artifact.QueryKeys` and `Proofs.Artifact.Invalidation` say what
follows.

## Hooks

A query takes the arguments of the function that it calls, a mutation takes them as one object of
variables when it is run. Both take options, less those that the hook sets itself, and spread them
over its own; so a caller can add to a hook and not change what it calls. What is imported follows
from the hooks: the types are those that some hook mentions.
-/

namespace ApiContract.HooksModule

open TypeScript

/-- The module that the client is imported from. -/
def clientModule : String := "./client"

/-- The module that the hooks are built on. -/
def runtimeModule : String := "@tanstack/react-query"

/-- What is generated for one operation. -/
structure Hook where
  surface : Surface
  /-- Whether the operation only reads; `none` if it has no hook. -/
  isQuery : Option Bool
  keys : List Entry
  declarations : List Declaration

/-- The arguments of an operation's call, by name. -/
def arguments (s : Surface) : List Expr := s.callParams.map fun p ↦ .identifier p.name

/-- The name of an operation's hook. -/
def hookName (s : Surface) : String := "use" ++ s.typeBase

/-- The keys of a group. -/
def keysOf (tagKey : String) : Expr := .member (.identifier "queryKeys") tagKey

/-- The entry that builds the key of a query from its arguments. -/
def queryKey (helpers : HelperTable) (s : Surface) : Except Failure Entry := do
  let segments ← helpers.segments "queryKey" s.op
  return .keyed s.functionName <|
    .arrow s.callParams (.asConst (.array (segments.map Expr.text ++ arguments s)))

/-- Options without those that a hook sets itself. -/
def without (options : TypeExpr) (names : List String) : TypeExpr :=
  .generic "Omit" [options, .ofMembers (names.map TypeExpr.text)]

/-- A call of an operation's function in the client. -/
def clientCall (s : Surface) (args : List Expr) : Expr :=
  (Expr.identifier "apiClient").method s.functionName args

/-- The hook of an operation that only reads. -/
def queryHook (helpers : HelperTable) (tagKey : String) (s : Surface) :
    Except Failure Declaration := do
  let options :=
    without (.generic "UseQueryOptions" [.named s.responseName]) ["queryKey", "queryFn"]
  let call := (Expr.identifier "useQuery").apply [.object
    [ .keyed "queryKey" ((keysOf tagKey).method s.functionName (arguments s))
    , .keyed "queryFn" (.arrow [] (clientCall s (arguments s)))
    , .spread (.identifier "options") ]]
  let doc ← s.doc helpers
  return .function (hookName s) false (s.callParams ++ [.optional "options" options]) none
    [.return call] (some doc)

/-- The type of what a mutation is called with. -/
def variablesType (params : List Param) : TypeExpr :=
  if params.isEmpty then .keyword "void"
  else .object (params.map fun p ↦
    { name := p.name, type := p.type.getD (.keyword "unknown"), isOptional := p.isOptional
      doc := none })

/-- The function that a mutation runs. -/
def mutationFunction (s : Surface) (typeName : String) : Expr :=
  if s.callParams.isEmpty then .arrow [] (clientCall s [])
  else .arrow [.required "variables" (.named typeName)]
    (clientCall s (s.callParams.map fun p ↦ .member (.identifier "variables") p.name))

/-- The type of the variables of a mutation, and its hook. -/
def mutationHook (helpers : HelperTable) (tagKey : String) (s : Surface) :
    Except Failure (List Declaration) := do
  let typeName := s.typeBase ++ "Variables"
  let options := without
    (.generic "UseMutationOptions" [.named s.responseName, .named "Error", .named typeName])
    ["mutationFn"]
  let invalidation := (Expr.identifier "queryClient").method "invalidateQueries"
    [.object [.keyed "queryKey" (.member (keysOf tagKey) "all")]]
  let call := (Expr.identifier "useMutation").apply [.object
    [ .keyed "mutationFn" (mutationFunction s typeName)
    , .keyed "onSuccess" (.arrow [] invalidation)
    , .spread (.identifier "options") ]]
  let doc ← s.doc helpers
  return [.alias typeName (variablesType s.callParams) none,
    .function (hookName s) false [.optional "options" options] none
      [ .const (.name "queryClient") ((Expr.identifier "useQueryClient").apply [])
      , .return call ]
      (some doc)]

/-- What is generated for an operation. -/
def hook (helpers : HelperTable) (tagKey : String) (op : Operation) : Except Failure Hook := do
  let s ← Surface.ofOperation helpers op
  if ← helpers.flag "isQuery" op then
    let key ← queryKey helpers s
    let declaration ← queryHook helpers tagKey s
    return ⟨s, some true, [key], [declaration]⟩
  else if ← helpers.flag "isMutation" op then
    let declarations ← mutationHook helpers tagKey s
    return ⟨s, some false, [], declarations⟩
  else return ⟨s, none, [], []⟩

/-- What is generated for a group: its keys, the heading with the hooks, and the hooks as such. -/
def group (helpers : HelperTable) (g : OperationGroup) :
    Except Failure (Entry × List Declaration × List Hook) := do
  let name ← helpers.text "camelCase" g.tag
  let tagKey := Identifier.binding name
  let hooks ← g.operations.mapM (hook helpers tagKey)
  let all := Entry.keyed "all" (.asConst (.array [.text g.tag]))
  return (.keyed tagKey (.object (all :: hooks.flatMap Hook.keys)),
    .banner ("Hooks: " ++ g.tag) :: hooks.flatMap Hook.declarations, hooks)

/-- The types of an operation that its hook mentions. -/
def typesOf (s : Surface) : List String :=
  s.paramsName.toList ++ (s.body.map Prod.fst).toList ++ [s.responseName]

/-- The imports from the module that the hooks are built on: what the hooks need of it. -/
def runtimeImports (hooks : List Hook) : List Declaration :=
  let queries := hooks.any fun h ↦ h.isQuery == some true
  let mutations := hooks.any fun h ↦ h.isQuery == some false
  let functions := (if mutations then ["useMutation"] else []) ++
    (if queries then ["useQuery"] else []) ++ (if mutations then ["useQueryClient"] else [])
  let types := (if mutations then ["UseMutationOptions"] else []) ++
    (if queries then ["UseQueryOptions"] else [])
  if functions.isEmpty then []
  else [.imports none functions runtimeModule false, .imports none types runtimeModule true]

/-- The imports from the client: its functions, and the types that the hooks mention, in order. -/
def clientImports (hooks : List Hook) : List Declaration :=
  let types := (NameSet.ofList (hooks.flatMap fun h ↦ typesOf h.surface)).toList
  .imports none ["apiClient"] clientModule false ::
    (if types.isEmpty then [] else [.imports none types clientModule true])

/-- The declarations of the module. -/
def declarations (plan : Plan) (helpers : HelperTable) : Except Failure (List Declaration) := do
  let groups ← plan.groups.mapM (group helpers)
  let hooks := groups.flatMap fun (_, _, hooks) ↦ hooks
  return [plan.header "React Query hooks"] ++ runtimeImports hooks ++ clientImports hooks ++
    [ .banner "Query Keys"
    , .const "queryKeys" none (.asConst (.object (groups.map Prod.fst))) none ] ++
    groups.flatMap fun (_, declarations, _) ↦ declarations

end ApiContract.HooksModule
