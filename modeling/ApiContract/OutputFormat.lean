import ApiContract.Failure
import ApiContract.Text.Basic

/-!
# Output formats and artifact paths

A format has a name, an extension for its artifacts, and the words that stand for it. Names of
formats come from users, so they are read without the blanks around them and in any case of letters.

An artifact goes to the output path as it is given if its file name has an extension, whichever that
is, and otherwise gets the extension of the format. Generating and checking both ask `artifactPath`,
so they speak of one file; asking twice changes nothing (`Proofs.ArtifactPath`).
-/

namespace ApiContract

/-- What can be generated from a contract. -/
inductive OutputFormat where
  /-- Types, validators and the index of operations. -/
  | typescript
  /-- An HTTP client. -/
  | axios
  /-- Query and mutation hooks over the client. -/
  | reactQuery
  /-- The resolved contract itself, as JSON. -/
  | openapi
  deriving DecidableEq, Repr, Inhabited

namespace OutputFormat

/-- Every format. -/
def all : List OutputFormat := [typescript, axios, reactQuery, openapi]

/-- The name of a format. -/
def name : OutputFormat → String
  | typescript => "typescript"
  | axios => "axios"
  | reactQuery => "react-query"
  | openapi => "openapi"

/-- The extension of an artifact whose path has none. -/
def extension : OutputFormat → String
  | openapi => "json"
  | _ => "ts"

/-- The format that a word stands for, in small letters and without blanks around it. -/
def ofWord? : String → Option OutputFormat
  | "typescript" | "ts" => some typescript
  | "axios" => some axios
  | "react-query" | "reactquery" => some reactQuery
  | "openapi" | "json" => some openapi
  | _ => none

/-- The format of a name; blanks around it and its case do not matter. -/
def ofName (name : String) : Except Failure OutputFormat :=
  match ofWord? (Text.lower (Text.trim name)) with
  | some format => .ok format
  | none => .error (.unknownFormat name)

/-- Where an artifact goes: the output path, with the format's extension if it has none. -/
def artifactPath (format : OutputFormat) (output : FilePath) : FilePath :=
  if output.extension?.isSome then output else output.withExtension format.extension

end OutputFormat

end ApiContract
