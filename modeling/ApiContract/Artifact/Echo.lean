import ApiContract.Artifact.Plan
import ApiContract.Json.Printer
import ApiContract.Spec.Codec

/-!
# The resolved contract as an artifact

A JSON document with the resolved contract, and in front of it what made it and what it holds: the
generator, the time if that is to be told, the counts of operations and models, and the names of the
recursive models.

The contract is written with the address that the plan gives it (`specOf`), in the form that
`Spec.ofJson?` reads. So the document can take the place of the contract that it was made from: what
is read from it renders the same document again (`Proofs.Spec.RoundTrip`).
-/

namespace ApiContract.Echo

open Json

/-- What stands in front of the contract. -/
def summary (plan : Plan) : List (String × Json) :=
  always "generator" (string "contract-codegen 0.1.0") ++
    optional "generated_at" (fun instant ↦ string (Instant.render instant "Z")) plan.generatedAt ++
    always "operation_count" (ofNat plan.operationCount) ++
    always "model_count" (ofNat plan.modelCount) ++
    always "recursive_models" (strings plan.graph.recursive.toList)

/-- The contract with the address that the plan gives it. -/
def specOf (plan : Plan) : Spec := { plan.spec with baseUrl := plan.baseUrl }

/-- The document. -/
def document (plan : Plan) : Json := object (summary plan ++ (specOf plan).toFields)

end ApiContract.Echo
