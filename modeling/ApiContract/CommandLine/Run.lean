import ApiContract.CommandLine.Command
import ApiContract.Config.Load
import ApiContract.Generation
import ApiContract.Lint.Codec
import ApiContract.Text.Quoted

/-!
# Running commands

What a program run prints, its exit code, and what it makes of the workspace. A run ends with 0 if
it did what was asked, with 1 if it failed or found fault with what it looked at, and with 2 if its
arguments are of no use. Only `generate` and `init` write.

## Representation

A run is a function from a workspace to a transcript and a workspace; what else it finds around it
is its `Host`: environment variables, the time, and the programs that can be started. A workspace
that comes out of a failed run is part of its result, since a run may have made directories before
it failed.

## Order

The configuration is loaded first, then the target is laid over it, then the work is done: a fault
in an earlier step hides those in later ones. `generate` prints its heading before it does anything,
`check` prints what would change, and the validator prints its report on the contract as text or as
JSON. `init` writes the default configuration and keeps a file that is there unless it is told
otherwise.

What a run can change in a workspace is the subject of `Proofs.CommandLine.Effect` and, for one run
after another, of `Proofs.CommandLine.Session`.
-/

namespace ApiContract.CommandLine

/-- What a run finds around it besides files. -/
structure Host where
  now : Instant
  environment : Environment
  programs : Programs

/-- What a run shows. -/
structure Transcript where
  exit : Nat
  out : String := ""
  err : String := ""
  deriving DecidableEq, Repr

/-- What a failure's first line tells. The cause of a file's failure is told once more behind it. -/
def failureText (failure : Failure) : String :=
  match failure with
  | .file _ fault => failure.message ++ ": " ++ fault.wording
  | _ => failure.message

/-- The line that tells why a run failed. -/
def errorLine (reason : String) : String := "❌ Error: " ++ reason ++ "\n"

/-- The findings, a line each. -/
def findingLines (findings : List Finding) : String :=
  String.join (findings.map fun f ↦ "   " ++ f.display ++ "\n")

/-- A run that failed after it printed something. -/
def Transcript.failed (out : String) (failure : Failure) : Transcript :=
  { exit := 1, out, err := errorLine (failureText failure) ++ findingLines failure.findings }

/-- A run that failed because there is no configuration. -/
def Transcript.unconfigured (fault : ConfigFault) : Transcript :=
  { exit := 1, err := errorLine ("loading configuration: " ++ fault.message) }

/-! ### The generator -/

/-- The options for a target: those that are configured, but for what the target says itself. -/
def Target.options (target : Target) (config : Config) (now : Instant) :
    Except Failure GenerateOptions := do
  let options ← config.options now
  let format ← (target.format.map OutputFormat.ofName).getD (.ok options.format)
  let baseUrl := target.baseUrl.orElse fun _ ↦ options.render.baseUrl
  return { options with format, render := { options.render with baseUrl } }

/-- Runs a generation with its options. -/
def runGenerate (host : Host) (target : Target) (options : GenerateOptions) (w : Workspace) :
    Transcript × Workspace :=
  let heading := "🔧 Generating " ++ options.format.name ++ " from " ++
    Text.quoted target.input.text ++ "\n"
  match generate host.programs target.input target.output options w with
  | (.error failure, w) => (.failed heading failure, w)
  | (.ok report, w) =>
    let note :=
      if options.formatter.isSome && !report.formatted then
        "   ⚠️  Formatter did not run; artifact left unformatted\n"
      else ""
    let out := heading ++ "✅ Wrote " ++ report.path.text ++ "\n   Size: " ++
      toString report.bytes ++ " bytes\n   Checksum: " ++ report.checksum.display ++ "\n" ++ note
    ({ exit := 0, out }, w)

/-- Runs a check with its options. -/
def runCheck (target : Target) (options : GenerateOptions) (w : Workspace) : Transcript :=
  let heading := "🔍 Checking " ++ options.format.name ++ " against " ++
    Text.quoted target.input.text ++ "\n"
  match check w target.input target.output options.toCompileOptions with
  | .error failure => .failed heading failure
  | .ok report =>
    match report.diff with
    | none =>
      { exit := 0
        out := heading ++ "✅ " ++ report.path.text ++ " is up to date\n   Checksum: " ++
          report.expected.display ++ "\n" }
    | some diff =>
      { exit := 1, out := heading ++ diff ++ "\n❌ " ++ report.path.text ++ " is out of date\n" }

/-- Writes the default configuration to a file. -/
def runInit (path : FilePath) (force : Bool) (w : Workspace) : Transcript × Workspace :=
  if (w.at? path).isSome && !force then
    ({ exit := 1
       err := errorLine (path.text ++ " already exists (use --force to replace it)") }, w)
  else
    match Config.save {} w path with
    | .error fault =>
      ({ exit := 1, err := errorLine ("writing " ++ path.text ++ ": " ++ fault.wording) }, w)
    | .ok w =>
      ({ exit := 0, out := "✅ Wrote default configuration to " ++ path.text ++ "\n" }, w)

/-! ### The validator -/

/-- A part of the findings under its title, if there are any. -/
def findingPart (sign title : String) (findings : List Finding) : String :=
  if findings.isEmpty then ""
  else sign ++ toString findings.length ++ " " ++ title ++ "(s):\n" ++ findingLines findings

/-- What the validator tells about a report. -/
def reportText (input : FilePath) (report : LintReport) (strict : Bool) : String :=
  "🔍 Validating " ++ Text.quoted input.text ++ "\n   " ++ toString report.operationCount ++
    " operation(s), " ++ toString report.modelCount ++ " model(s)\n\n" ++
    findingPart "❌ " "error" report.errors ++ findingPart "⚠️  " "warning" report.warnings ++
    "\n" ++
    (if report.passes strict then "✅ Contract is valid\n"
      else if report.isValid then "❌ Strict mode: warnings are failures\n"
      else "❌ Contract is invalid\n")

/-- Validates a contract under a configuration. -/
def runValidate (host : Host) (config : Config) (input : FilePath) (json strict : Bool)
    (w : Workspace) : Transcript :=
  match validate w input config.validation.policy with
  | .error failure => { exit := 1, err := errorLine (failureText failure) }
  | .ok report =>
    -- A run can ask for more than the configuration does, never for less.
    let strict := strict || config.validation.strict
    { exit := if report.passes strict then 0 else 1
      out := if json then (report.toJson host.now).pretty 0 ++ "\n"
        else reportText input report strict }

/-! ### All commands -/

/-- Runs a command. -/
def Command.run (host : Host) (command : Command) (w : Workspace) : Transcript × Workspace :=
  match command with
  | .generate config target skipValidation noFormat timestamp =>
    match Config.load host.environment w config with
    | .error fault => (.unconfigured fault, w)
    | .ok config =>
      match target.options config host.now with
      | .error failure => (.failed "" failure, w)
      | .ok options =>
        let generatedAt := if timestamp then some host.now else options.render.generatedAt
        let options := { options with
          skipValidation
          formatter := if noFormat then none else options.formatter
          render := { options.render with generatedAt } }
        runGenerate host target options w
  | .check config target =>
    match Config.load host.environment w config with
    | .error fault => (.unconfigured fault, w)
    | .ok config =>
      match target.options config host.now with
      | .error failure => (.failed "" failure, w)
      | .ok options => (runCheck target options w, w)
  | .init path force => runInit path force w
  | .validate config input json strict =>
    match Config.load host.environment w config with
    | .error fault => (.unconfigured fault, w)
    | .ok config => (runValidate host config input json strict w, w)

/-- How a program is used. -/
def Program.usage : Program → String
  | .generator => "Generate typed client bindings from an API contract\n\n" ++
    "Usage: contract-codegen [--config <CONFIG>] <generate|check|init>\n\n" ++
    "  generate -i <INPUT> -o <OUTPUT> [-f <FORMAT>] [--base-url <URL>]\n" ++
    "           [--skip-validation] [--no-format] [--timestamp]\n" ++
    "  check    -i <INPUT> -o <OUTPUT> [-f <FORMAT>] [--base-url <URL>]\n" ++
    "  init     [PATH] [--force]\n"
  | .validator => "Lint an API contract document\n\n" ++
    "Usage: contract-validator [--json] [--strict] [--config <CONFIG>] <INPUT>\n"

/-- Runs a program with arguments. -/
def Program.run (program : Program) (host : Host) (arguments : List String) (w : Workspace) :
    Transcript × Workspace :=
  match Command.ofArguments program arguments with
  | .ok command => command.run host w
  | .error .help => ({ exit := 0, out := program.usage }, w)
  | .error (.fault fault) =>
    ({ exit := 2, err := "error: " ++ fault.message ++ "\n\n" ++ program.usage }, w)

end ApiContract.CommandLine
