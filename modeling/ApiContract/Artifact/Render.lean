import ApiContract.Artifact.Client
import ApiContract.Artifact.Echo
import ApiContract.Artifact.Hooks
import ApiContract.Artifact.Types
import ApiContract.OutputFormat
import ApiContract.TypeScript.Printer

/-!
# Artifacts

The text generated from a contract, in each of the formats. Three formats are modules of
declarations, which the printer turns into text; the fourth is the resolved contract itself as JSON.

Nothing is read here but the contract, the options and the table of helpers, so the same three give
the same text, or the same failure.
-/

namespace ApiContract

/-- The artifact of a format for a plan. -/
def Plan.render (plan : Plan) (format : OutputFormat) (helpers : HelperTable) :
    Except Failure String :=
  match format with
  | .typescript => (TypesModule.declarations plan helpers).map TypeScript.printModule
  | .axios => (ClientModule.declarations plan helpers).map TypeScript.printModule
  | .reactQuery => (HooksModule.declarations plan helpers).map TypeScript.printModule
  | .openapi => .ok (Json.pretty 0 (Echo.document plan) ++ "\n")

/-- The artifact of a format for a contract. -/
def Spec.render (spec : Spec) (format : OutputFormat) (options : RenderOptions)
    (helpers : HelperTable) : Except Failure String := do
  let plan ← Plan.ofSpec spec options
  plan.render format helpers

end ApiContract
