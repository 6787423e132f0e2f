import ApiContract.Artifact.Plan
import ApiContract.Projection.Validator

/-!
# Declarations for the models

What artifacts in TypeScript have in common: the comment at the head, the address of the service, a
type for every model and a validator for every model.

Types may refer to each other in any order, so they are declared in the order of the document.
Validators are constants, which are evaluated where they stand: each is declared after those that it
refers to, in the order of the graph of models. Only recursive models are referred to before their
declaration, and then lazily; the type of such a validator cannot be inferred and is stated.

A model whose type is an object type and nothing else is an interface, any other is an alias. That
the names of all these declarations are distinct is due to the plan, which is refused otherwise.
-/

namespace ApiContract

open TypeScript

/-- The constant that holds the address of the service. -/
def baseUrlName : String := "API_BASE_URL"

/-- The declaration of a model's type: an interface if its members can be listed, otherwise an
alias. -/
def Model.typeDeclaration (model : Model) : Declaration :=
  match model.schema.interfaceMembers? with
  | some members => .interface (typeName model.name) members model.description
  | none => .alias (typeName model.name) model.schema.toType model.description

namespace Plan

/-- The comment at the head of an artifact. -/
def header (plan : Plan) (label : String) : Declaration := .docBlock (plan.headerLines label)

/-- The declaration of the address of the service. -/
def baseUrlDeclaration (plan : Plan) : Declaration :=
  .const baseUrlName none (.text plan.baseUrl) none

/-- The types of the models, in the order of the document. -/
def modelDeclarations (plan : Plan) : List Declaration :=
  plan.spec.models.map Model.typeDeclaration

/-- The validator of a model; that of a recursive one states its type, which cannot be inferred. -/
def validatorDeclaration (plan : Plan) (model : Model) : Declaration :=
  .const (validatorName model.name)
    (if plan.graph.isRecursive model.name then
      some (.generic "z.ZodType" [.named (typeName model.name)]) else none)
    (model.schema.toValidator plan.graph.recursive) none

/-- The validators of the models, each after those that it refers to. -/
def validatorDeclarations (plan : Plan) : List Declaration :=
  plan.orderedModels.map plan.validatorDeclaration

end Plan

end ApiContract
