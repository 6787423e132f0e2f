import ApiContract.Artifact.Render
import ApiContract.Lint.Report
import ApiContract.Spec.Build

/-!
# From document to artifact

Linting, resolving and rendering one after the other. A contract with errors is not rendered, and in
strict mode neither is one with warnings; with `skipValidation` nothing is linted.

The linter and the resolver read the document independently of each other. A contract that passes
the one can still fail in the other: whatever is missing or malformed, resolution goes on without
it, and the plan refuses what would not make sense as code.
-/

namespace ApiContract

/-- What a caller wants of a compilation. -/
structure CompileOptions where
  format : OutputFormat
  render : RenderOptions := {}
  policy : LintPolicy := {}
  /-- Whether warnings count as errors. -/
  strict : Bool := false
  skipValidation : Bool := false

/-- The artifact for a contract document. -/
def compile (doc : Json) (options : CompileOptions) (helpers : HelperTable) :
    Except Failure String := do
  if !options.skipValidation then
    let _ ← (lint options.policy doc).enforce options.strict
  (Spec.ofDocument doc).render options.format options.render helpers

end ApiContract
