import ApiContract.Compile
import ApiContract.Lint.Policy

/-!
# Configuration

What a team settles once for all its runs: what to generate and how, and what to ask of a contract.
Every setting has a default. A run turns the configuration into its options, where a format gets its
meaning and routes that cannot be read are left out.

Settings are kept as they are written: the format is a text and a required route is one too, so that
a configuration can be read and saved without knowing what its texts mean. `Config.options` fails
for a format that means nothing; `ValidationConfig.policy` passes over a route that is none.
-/

namespace ApiContract

/-- A command that formats artifacts; the path of the artifact is its last argument. -/
structure FormatterCommand where
  command : String
  args : List String := []
  deriving DecidableEq, Repr

/-- The settings for generating. -/
structure GenerateConfig where
  /-- The name of the output format. -/
  format : String := "typescript"
  /-- The server to use in place of the contract's. -/
  baseUrl : Option String := none
  formatter : Option FormatterCommand := none
  /-- Whether artifacts tell when they were generated. -/
  timestamp : Bool := false
  deriving DecidableEq, Repr

/-- The settings for validating. -/
structure ValidationConfig where
  /-- Whether warnings count as errors. -/
  strict : Bool := false
  /-- Routes that every contract must define, each a method and a path. -/
  requiredRoutes : List String := defaultRequiredRoutes
  /-- Beginnings of paths whose operations must require authentication. -/
  protectedPrefixes : List String := defaultProtectedPrefixes
  /-- Media types that a request body may have. -/
  allowedContentTypes : List String := defaultAllowedContentTypes
  deriving DecidableEq, Repr

/-- The policy that the settings describe. -/
def ValidationConfig.policy (settings : ValidationConfig) : LintPolicy where
  requiredRoutes := settings.requiredRoutes.filterMap Route.ofText?
  protectedPrefixes := settings.protectedPrefixes
  allowedContentTypes := settings.allowedContentTypes

/-- All settings. -/
structure Config where
  generate : GenerateConfig := {}
  validation : ValidationConfig := {}
  deriving DecidableEq, Repr

/-- What a caller wants of a generation: a compilation, and a formatter to run on its artifact. -/
structure GenerateOptions extends CompileOptions where
  formatter : Option FormatterCommand := none

namespace Config

/-- The options that a configuration describes at a moment. -/
def options (config : Config) (now : Instant) : Except Failure GenerateOptions := do
  let format ← OutputFormat.ofName config.generate.format
  return {
    format
    render :=
      { baseUrl := config.generate.baseUrl
        generatedAt := if config.generate.timestamp then some now else none }
    policy := config.validation.policy
    strict := config.validation.strict
    formatter := config.generate.formatter }

end Config

end ApiContract
