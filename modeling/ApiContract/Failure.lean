import ApiContract.FilePath
import ApiContract.Http
import ApiContract.Lint.Finding
import ApiContract.Text.Basic

/-!
# Failures

Why a run ends without a result, one constructor per cause. The wording is in `Failure.message` and
in the functions for the causes with more than one form: `FileFault.wording`, `RenderFault.message`,
`FormatterFault.message` and `ConfigFault.message`.

A constructor holds what its message tells, such as the ids and routes of two operations that
collide, so that a statement about a failure can speak of these and not of a text. Failures of the
linter carry its findings, which a run prints below the message.
-/

namespace ApiContract

/-- Why a file could not be read or written. -/
inductive FileFault where
  | notFound
  | isDirectory
  | notDirectory
  | alreadyExists
  | permissionDenied
  | notText
  | nameTooLong
  | other (wording : String)
  deriving DecidableEq, Repr

/-- The wording of a file fault. -/
def FileFault.wording : FileFault → String
  | notFound => "No such file or directory (os error 2)"
  | permissionDenied => "Permission denied (os error 13)"
  | alreadyExists => "File exists (os error 17)"
  | notDirectory => "Not a directory (os error 20)"
  | isDirectory => "Is a directory (os error 21)"
  | notText => "stream did not contain valid UTF-8"
  | nameTooLong => "File name too long (os error 36)"
  | other wording => wording

/-- Why a contract cannot be rendered. -/
inductive RenderFault where
  /-- A model's name has no letter or digit. -/
  | namelessModel (model : String)
  /-- Two models have one generated name. -/
  | modelsCollide (model generated previous : String)
  /-- Two operations have one generated name. -/
  | operationsCollide (operation : String) (previous current : Route) (generated : String)
  /-- A type generated for an operation has the name of a model. -/
  | typeCollides (operation generated model : String)
  /-- A model refers to what is not a model. -/
  | modelDangles (model reference : String)
  /-- An operation refers to what is not a model. -/
  | operationDangles (operation reference : String)
  /-- An operation's id has no letter or digit. -/
  | namelessOperation (operation : String) (route : Route)
  /-- A placeholder in an operation's path has no parameter. -/
  | unboundPlaceholder (operation placeholder : String)
  /-- A helper was given an argument of a kind that it does not take. -/
  | helperArgument (helper : String)
  /-- A helper gave a value of another kind than its caller takes; the value is shown. -/
  | helperResult (helper shown : String)
  deriving DecidableEq, Repr

namespace RenderFault

/-- What could not be rendered. -/
def subject : RenderFault → String
  | namelessModel model | modelsCollide model _ _ | modelDangles model _ =>
    "model '" ++ model ++ "'"
  | operationsCollide operation _ _ _ | typeCollides operation _ _ | operationDangles operation _
  | unboundPlaceholder operation _ => "operation '" ++ operation ++ "'"
  | namelessOperation operation route => "operation '" ++ operation ++ "' (" ++ route.display ++ ")"
  | helperArgument helper | helperResult helper _ => "helper '" ++ helper ++ "'"

/-- What is wrong with it. -/
def message : RenderFault → String
  | namelessModel _ => "name has no characters usable in an identifier"
  | modelsCollide _ generated previous =>
    "generated name '" ++ generated ++ "' collides with model '" ++ previous ++ "'"
  | operationsCollide _ previous current generated =>
    previous.display ++ " and " ++ current.display ++ " both generate '" ++ generated ++
      "'; give one an explicit operationId"
  | typeCollides _ generated model =>
    "generated type '" ++ generated ++ "' collides with model '" ++ model ++ "'"
  | modelDangles _ reference | operationDangles _ reference =>
    "references '" ++ reference ++ "', which is not a component schema"
  | namelessOperation _ _ => "operation id has no characters usable in an identifier"
  | unboundPlaceholder _ placeholder =>
    "path placeholder '\x7b" ++ placeholder ++ "\x7d' has no path parameter"
  | helperArgument _ => "argument of the wrong kind"
  | helperResult _ shown => "returned an unexpected value: " ++ shown

end RenderFault

/-- Why a formatter did not format. -/
inductive FormatterFault where
  /-- The command could not be started. -/
  | notStarted (command : String) (fault : FileFault)
  /-- The command ended with a failure, which is told, and wrote the given text to its error
  output. -/
  | ended (command status errors : String)
  deriving DecidableEq, Repr

/-- The wording of a formatter's fault. -/
def FormatterFault.message : FormatterFault → String
  | notStarted command fault => "could not run '" ++ command ++ "': " ++ fault.wording
  | ended command status errors =>
    "'" ++ command ++ "' exited with " ++ status ++ ": " ++ Text.trim errors

/-- Why there is no configuration. -/
inductive ConfigFault where
  | missing (path : FilePath)
  | unknownSyntax (path : FilePath)
  | unreadable (path : FilePath) (fault : FileFault)
  | unparsable (path : FilePath) (reason : String)
  /-- The file holds something else than settings with names. -/
  | notTable (path : FilePath)
  /-- A setting has a value that is none of its type. -/
  | unfit
  deriving DecidableEq, Repr

/-- The wording of a configuration's fault. -/
def ConfigFault.message : ConfigFault → String
  | missing path => "configuration file \"" ++ path.text ++ "\" not found"
  | unknownSyntax path =>
    "configuration file \"" ++ path.text ++ "\" is not of a registered file format"
  | unreadable _ fault => fault.wording
  | unparsable path reason => reason ++ " in " ++ path.text
  | notTable path => "invalid type, expected a map in " ++ path.text
  | unfit => "invalid type of a setting"

/-- Why a run ended without a result. -/
inductive Failure where
  | file (path : FilePath) (fault : FileFault)
  | unparsable (path : FilePath) (message : String)
  | invalid (errors : List Finding)
  | warned (warnings : List Finding)
  | unknownFormat (name : String)
  | render (fault : RenderFault)
  | unknownHelper (name : String)
  | formatter (fault : FormatterFault)
  | configuration (fault : ConfigFault)
  deriving DecidableEq, Repr

namespace Failure

/-- What to tell about a failure. -/
def message : Failure → String
  | file path fault => "IO error on " ++ path.text ++ ": " ++ fault.wording
  | unparsable path message => "Failed to parse " ++ path.text ++ ": " ++ message
  | invalid errors => "Contract has " ++ toString errors.length ++ " error(s)"
  | warned warnings =>
    "Strict mode: contract has " ++ toString warnings.length ++ " warning(s)"
  | unknownFormat name =>
    "Unknown output format '" ++ name ++
      "'. Expected one of: typescript, axios, react-query, openapi"
  | render fault => "Failed to render " ++ fault.subject ++ ": " ++ fault.message
  | unknownHelper name => "Unknown render helper '" ++ name ++ "'"
  | formatter fault => "Formatter failed: " ++ fault.message
  | configuration fault => "Configuration error: " ++ fault.message

/-- The findings that a failure carries. -/
def findings : Failure → List Finding
  | invalid errors => errors
  | warned warnings => warnings
  | _ => []

end Failure

end ApiContract
