import ApiContract.Artifact.Declarations
import ApiContract.Artifact.Surface
import ApiContract.TypeScript.Printer

/-!
# The module of types and validators

Types and validators of the models, the types of every operation, and an index of the operations.

For each group of operations there are the types of its operations, validators of their bodies, and
a constant with the ids of the group; the constant is named after the tag. The index has an entry
for each operation under the name of its function, with its method, path, tag and whether it
requires authentication. Both are left out where they would be empty, and so are the parts about the
models.

The validators of the models come before everything that refers to them; those of bodies stand with
their operations, after all models.
-/

namespace ApiContract.TypesModule

open TypeScript

/-- The declarations in front of the models. -/
def opening (plan : Plan) : List Declaration :=
  [ plan.header "Types and validators"
  , .imports none ["z"] "zod" false
  , plan.baseUrlDeclaration ]

/-- The part about the models, if there are any. -/
def models (plan : Plan) : List Declaration :=
  if plan.modelCount = 0 then []
  else
    [.banner "Models"] ++ plan.modelDeclarations ++ [.banner "Validators"] ++
      plan.validatorDeclarations

/-- The validator of an operation's body. -/
def bodyValidators (plan : Plan) (s : Surface) : List Declaration :=
  match s.body, s.op.requestBody with
  | some (name, _), some body =>
    [.const (name ++ "Schema") none (body.schema.toValidator plan.graph.recursive) none]
  | _, _ => []

/-- What the index says about an operation. -/
def indexEntry (helpers : HelperTable) (tag : String) (s : Surface) : Except Failure Entry := do
  let requiresAuth ← helpers.flag "requiresAuth" s.op
  return .keyed s.functionName <| .object
    [ .keyed "method" (.text s.op.method.display)
    , .keyed "path" (.text s.op.path)
    , .keyed "tag" (.text tag)
    , .keyed "requiresAuth" (.bool requiresAuth)
    , .keyed "deprecated" (.bool s.op.deprecated) ]

/-- The declarations for an operation, and its entry in the index. -/
def operation (plan : Plan) (helpers : HelperTable) (tag : String) (op : Operation) :
    Except Failure (List Declaration × Entry) := do
  let s ← Surface.ofOperation helpers op
  let types ← s.typeDeclarations helpers
  let entry ← indexEntry helpers tag s
  return (types ++ bodyValidators plan s, entry)

/-- The part about a group of operations, and their entries in the index. -/
def group (plan : Plan) (helpers : HelperTable) (g : OperationGroup) :
    Except Failure (List Declaration × List Entry) := do
  let parts ← g.operations.mapM (operation plan helpers g.tag)
  let constant ← helpers.text "constantCase" g.tag
  let ids := g.operations.map fun op ↦ Expr.text op.id
  return ([.banner ("Operations: " ++ g.tag)] ++ parts.flatMap Prod.fst ++
    [.const (constant ++ "_OPERATIONS") none (.asConst (.array ids)) none], parts.map Prod.snd)

/-- The index of the operations, if there are any. -/
def index (entries : List Entry) : List Declaration :=
  if entries.isEmpty then []
  else
    [ .banner "Operation Index"
    , .const "operations" none (.asConst (.object entries)) none ]

/-- The declarations of the module. -/
def declarations (plan : Plan) (helpers : HelperTable) : Except Failure (List Declaration) := do
  let groups ← plan.groups.mapM (group plan helpers)
  return opening plan ++ models plan ++ groups.flatMap Prod.fst ++ index (groups.flatMap Prod.snd)

end ApiContract.TypesModule
