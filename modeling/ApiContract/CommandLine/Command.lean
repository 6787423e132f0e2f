import ApiContract.CommandLine.Arguments
import ApiContract.FilePath

/-!
# Commands

What the two programs can be asked to do, and how arguments ask for it. The generator has a command
for each of its tasks (`generate`, `check` and `init`), the validator has one task.

A `Command` holds what was asked and nothing of what it depends on besides: the configuration, the
files and the time are found when it runs. A configuration file can be named in front of the command
or behind its name. A `Target` is what `generate` and `check` have in common: an input, an output,
and what may take the place of the configured format and address.
-/

namespace ApiContract.CommandLine

/-- The programs. -/
inductive Program where
  | generator
  | validator
  deriving DecidableEq, Repr

/-- What to generate or check. -/
structure Target where
  input : FilePath
  output : FilePath
  /-- The name of a format, in place of the configured one. -/
  format : Option String
  /-- A server, in place of the configured one. -/
  baseUrl : Option String
  deriving DecidableEq, Repr

/-- What to do. -/
inductive Command where
  | generate (config : Option FilePath) (target : Target) (skipValidation noFormat timestamp : Bool)
  | check (config : Option FilePath) (target : Target)
  /-- Write the default configuration to a file, even if there is one already if `force`. -/
  | init (path : FilePath) (force : Bool)
  /-- Lint a contract and tell what is found, as JSON if `json`. -/
  | validate (config : Option FilePath) (input : FilePath) (json strict : Bool)
  deriving DecidableEq, Repr

/-- The option that names a configuration file. -/
def configOption : OptionRule := .value "config" (some 'c') true

/-- The options that describe a target. -/
def targetOptions : List OptionRule :=
  [.value "input" (some 'i') false, .value "output" (some 'o') false,
    .value "format" (some 'f') true, .value "base-url" none true]

namespace Arguments

/-- The target that arguments describe. -/
def target (found : Arguments) : Except UsageEnd Target := do
  let input ← found.value "input"
  let output ← found.value "output"
  return ⟨⟨input⟩, ⟨output⟩, found.value? "format", found.value? "base-url"⟩

/-- At most one operand. -/
def operand? (found : Arguments) : Except UsageEnd (Option String) :=
  match found.operands with
  | [] => .ok none
  | [operand] => .ok (some operand)
  | _ :: extra :: _ => .error (.fault (.unexpected extra))

/-- No operand. -/
def noOperand (found : Arguments) : Except UsageEnd Unit :=
  match found.operands with
  | [] => .ok ()
  | extra :: _ => .error (.fault (.unexpected extra))

end Arguments

namespace Command

/-- The command that the generator's arguments give after the command's name. A configuration file
may be named in front of it too. -/
def ofGeneratorArguments (outer : Arguments) (name : String) (arguments : List String) :
    Except UsageEnd Command := do
  let readWith (rules : List OptionRule) : Except UsageEnd Arguments := do
    let (found, _) ← Arguments.read (configOption :: rules) false {} arguments
    return found
  let config (found : Arguments) : Option FilePath :=
    ((found.value? "config").orElse fun _ ↦ outer.value? "config").map FilePath.mk
  match name with
  | "generate" =>
    let found ← readWith
      (targetOptions ++ [.flag "skip-validation", .flag "no-format", .flag "timestamp"])
    found.noOperand
    return .generate (config found) (← found.target) (found.has "skip-validation")
      (found.has "no-format") (found.has "timestamp")
  | "check" =>
    let found ← readWith targetOptions
    found.noOperand
    return .check (config found) (← found.target)
  | "init" =>
    let found ← readWith [.flag "force"]
    return .init ⟨(← found.operand?).getD "contract-codegen.toml"⟩ (found.has "force")
  | "help" => throw .help
  | _ => throw (.fault (.unknownCommand name))

/-- The command that the generator's arguments give. -/
def ofGenerator (arguments : List String) : Except UsageEnd Command := do
  let (outer, rest) ← Arguments.read [configOption] true {} arguments
  match rest with
  | name :: rest => ofGeneratorArguments outer name rest
  | [] => throw (.fault (.missing "<COMMAND>"))

/-- The command that the validator's arguments give. -/
def ofValidator (arguments : List String) : Except UsageEnd Command := do
  let (found, _) ← Arguments.read [configOption, .flag "json", .flag "strict"] false {} arguments
  match ← found.operand? with
  | none => throw (.fault (.missing "<INPUT>"))
  | some "" => throw (.fault (.emptyValue "<INPUT>"))
  | some input =>
    return .validate ((found.value? "config").map FilePath.mk) ⟨input⟩ (found.has "json")
      (found.has "strict")

/-- The command that a program's arguments give. -/
def ofArguments : Program → List String → Except UsageEnd Command
  | .generator => ofGenerator
  | .validator => ofValidator

end Command

end ApiContract.CommandLine
