import ApiContract.Failure
import ApiContract.Instant
import ApiContract.ModelGraph
import ApiContract.Projection.Type

/-!
# Plans

A `Plan` is what every artifact is made from: a resolved contract that can be rendered, its
operations grouped by tag, and the graph of its models. `Plan.ofSpec` refuses a contract in which
two things would be declared under one name, or which refers to something that would not be declared
at all.

## What is checked

The checks run in this order, and the first fault found is the answer (`fault?`). A model needs a
name with a letter or digit and shares it with no other model. The names of an operation's types
begin with its id in Pascal case; no two operations share it, and no type of an operation is named
like a model. An operation without any name is passed over here: what needs the name fails later. At
last every name that a schema refers to, below a model or in an operation, has to be a model.

Operations are held apart by the names of their types only. Functions and keys are named in camel
case, which two ids can share although their types differ (`Proofs.Artifact.FunctionNames`).

## Groups

Operations are grouped by their primary tag. Groups stand in the order of their tags, and the
operations of a group in that of the document, which is a stable sort by tags
(`Proofs.Artifact.Grouping`).
-/

namespace ApiContract

/-- What a caller may lay down about an artifact. -/
structure RenderOptions where
  /-- The address of the service, in place of the contract's own. -/
  baseUrl : Option String := none
  /-- When the artifact was made, if that is to be told. -/
  generatedAt : Option Instant := none
  deriving DecidableEq, Repr, Inhabited

/-- Operations with one primary tag, in the order of the document. -/
structure OperationGroup where
  tag : String
  operations : List Operation

/-- What artifacts are made from. -/
structure Plan where
  spec : Spec
  baseUrl : String
  /-- The groups, in the order of their tags. -/
  groups : List OperationGroup
  generatedAt : Option Instant
  graph : ModelGraph

namespace Plan

/-! ### What can be rendered -/

/-- The first model whose generated name is empty or that of a model before it. The first argument
lists the generated names before, each with its model. -/
def modelNameFault? (seen : List (String × String)) : List Model → Option RenderFault
  | [] => none
  | model :: rest =>
    let generated := typeName model.name
    if generated.isEmpty then some (.namelessModel model.name)
    else
      match seen.lookup generated with
      | some previous => some (.modelsCollide model.name generated previous)
      | none => modelNameFault? ((generated, model.name) :: seen) rest

/-- Whether a parameter is one of the arguments of the generated function; the others are left to
the caller's configuration. -/
def isSurfaceParameter (parameter : Parameter) : Bool :=
  parameter.place == .path || parameter.place == .query

/-- The types that are declared for an operation, given the base of their names. -/
def operationTypes (op : Operation) (base : String) : List String :=
  [base ++ "Response"] ++
    (if op.parameters.any isSurfaceParameter then [base ++ "Params"] else []) ++
    (if op.requestBody.isSome then [base ++ "Body"] else [])

/-- The model whose generated name is the given one. -/
def modelOfType? (models : List Model) (generated : String) : Option Model :=
  models.find? fun model ↦ typeName model.name == generated

/-- The first operation whose generated names are those of an operation before it or of a model. An
operation without any generated name is passed over here. -/
def operationNameFault? (models : List Model) (seen : List (String × Operation)) :
    List Operation → Option RenderFault
  | [] => none
  | op :: rest =>
    let base := typeName op.id
    if base.isEmpty then operationNameFault? models seen rest
    else
      match seen.lookup base with
      | some previous => some (.operationsCollide op.id previous.route op.route base)
      | none =>
        let collision := (operationTypes op base).findSome? fun type ↦
          (modelOfType? models type).map fun model ↦ RenderFault.typeCollides op.id type model.name
        match collision with
        | some fault => some fault
        | none => operationNameFault? models ((base, op) :: seen) rest

/-- The least name that a schema refers to and that is no model. -/
def danglingName? (models : List Model) (schema : Schema) : Option String :=
  schema.referencedNames.toList.find? fun name ↦ !models.any fun model ↦ model.name == name

/-- The schemas of an operation: of its parameters, its body and its responses. -/
def operationSchemas (op : Operation) : List Schema :=
  op.parameters.map Parameter.schema ++ (op.requestBody.map RequestBody.schema).toList ++
    op.responses.filterMap Response.schema

/-- The first reference to what is no model: in the models, then in the operations. -/
def referenceFault? (spec : Spec) : Option RenderFault :=
  let inModels := spec.models.findSome? fun model ↦
    (danglingName? spec.models model.schema).map (RenderFault.modelDangles model.name)
  let inOperations := spec.operations.findSome? fun op ↦
    ((operationSchemas op).findSome? (danglingName? spec.models)).map
      (RenderFault.operationDangles op.id)
  inModels <|> inOperations

/-- Why a contract cannot be rendered, if it cannot. -/
def fault? (spec : Spec) : Option RenderFault :=
  modelNameFault? [] spec.models <|>
    operationNameFault? spec.models [] spec.operations <|>
    referenceFault? spec

/-! ### Plans -/

/-- The operations by primary tag, in the order of the tags. -/
def groupsOf (operations : List Operation) : List OperationGroup :=
  (NameSet.ofList (operations.map Operation.primaryTag)).toList.map fun tag ↦
    ⟨tag, operations.filter fun op ↦ op.primaryTag == tag⟩

/-- The plan for a contract. -/
def ofSpec (spec : Spec) (options : RenderOptions) : Except Failure Plan :=
  match fault? spec with
  | some fault => .error (.render fault)
  | none => .ok
    { spec
      baseUrl := options.baseUrl.getD spec.baseUrl
      groups := groupsOf spec.operations
      generatedAt := options.generatedAt
      graph := ModelGraph.ofModels spec.models }

/-- Whether clients can authenticate. -/
def hasSecurity (plan : Plan) : Bool := !plan.spec.securitySchemes.isEmpty

/-- The number of operations. -/
def operationCount (plan : Plan) : Nat := plan.spec.operations.length

/-- The number of models. -/
def modelCount (plan : Plan) : Nat := plan.spec.models.length

/-- The models, each after what it refers to. -/
def orderedModels (plan : Plan) : List Model := plan.graph.order.filterMap plan.spec.model?

/-- The operations in the order of the groups. -/
def operations (plan : Plan) : List Operation := plan.groups.flatMap OperationGroup.operations

/-- The lines at the head of an artifact, which say what it is and what it was made from. -/
def headerLines (plan : Plan) (label : String) : List String :=
  [plan.spec.title ++ " v" ++ plan.spec.version] ++
    (match plan.spec.description with
      | some description => "" :: (Text.lines description).map Text.trimEnd
      | none => []) ++
    ["", label ++ " generated by contract-codegen from " ++ toString plan.operationCount ++
      " operation(s) and " ++ toString plan.modelCount ++ " model(s). Do not edit."] ++
    (match plan.generatedAt with
      | some instant => ["Generated at: " ++ instant.render "+00:00"]
      | none => [])

end Plan

end ApiContract
