import ApiContract.Document
import ApiContract.Drift
import ApiContract.Emission

/-!
# Generating and checking artifacts

Runs over a workspace: reading a contract file, validating it, generating its artifact, and checking
the artifact that is there against what would be generated now. Only generating writes. A check
compares without the time of generation, and an artifact that is missing compares as the empty text.

`generate` and `check` go the same way up to the text: both read the contract, lint it under the
same policy and render it, and both take the path of the artifact from the output and the format. So
a check after a generation finds the artifact where it was written and compares it with the text
that was written, if that did not tell its time (`Proofs.Generation`).
-/

namespace ApiContract

/-- The document of a contract file. -/
def Workspace.contract (w : Workspace) (path : FilePath) : Except Failure Json :=
  match w.text path with
  | .error fault => .error (.file path fault)
  | .ok text =>
    match (DocumentSyntax.ofPath path).parse text with
    | .error message => .error (.unparsable path message)
    | .ok doc => .ok doc

/-- What the linter finds in a contract file. -/
def validate (w : Workspace) (input : FilePath) (policy : LintPolicy) :
    Except Failure LintReport := do
  return lint policy (← w.contract input)

/-- Generates the artifact of a contract file. -/
def generate (programs : Programs) (input output : FilePath) (options : GenerateOptions)
    (w : Workspace) : Except Failure EmitReport × Workspace :=
  match w.contract input >>= fun doc ↦ compile doc options.toCompileOptions .standard with
  | .error failure => (.error failure, w)
  | .ok content => emit programs output options.format content options.formatter w

/-- The text of an artifact; that of a missing one is empty. -/
def Workspace.artifact (w : Workspace) (path : FilePath) : Except Failure String :=
  match w.text path with
  | .ok text => .ok text
  | .error .notFound => .ok ""
  | .error fault => .error (.file path fault)

/-- Options for a compilation that does not tell its time. -/
def CompileOptions.untimed (options : CompileOptions) : CompileOptions :=
  { options with render := { options.render with generatedAt := none } }

/-- Compares an artifact with what would be generated now. -/
def check (w : Workspace) (input output : FilePath) (options : CompileOptions) :
    Except Failure DriftReport := do
  let expected ← compile (← w.contract input) options.untimed .standard
  let path := options.format.artifactPath output
  return .ofTexts path (← w.artifact path) expected

end ApiContract
