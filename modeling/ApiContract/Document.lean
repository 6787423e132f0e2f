import ApiContract.FilePath
import ApiContract.Json.Reader
import ApiContract.Yaml.Reader

/-!
# Contract documents

The syntax of a contract file follows from its extension; a file with another extension is tried as
JSON first and then as YAML. Either way the document is one tree.

Both readers drop a repeated key, the later value in the place of the first, so the keys of every
object are distinct (`Proofs.Json.DistinctKeys`); and both bound their integers to sixty-four bits
and refuse or drop a number that is not finite (`Proofs.Json.Numbers`). Everything that follows
works on the tree and does not know which syntax it came from.
-/

namespace ApiContract

/-- The syntaxes that a document may be written in. -/
inductive DocumentSyntax where
  | json
  | yaml
  /-- JSON if it can be read as such, otherwise YAML. -/
  | unknown
  deriving DecidableEq, Repr, Inhabited

namespace DocumentSyntax

/-- The name of a syntax. -/
def name : DocumentSyntax → String
  | json => "json"
  | yaml => "yaml"
  | unknown => "unknown"

/-- The syntax of a file, by its extension in any case. -/
def ofPath (path : FilePath) : DocumentSyntax :=
  match path.extension?.map Text.lower with
  | some "json" => json
  | some "yaml" | some "yml" => yaml
  | _ => unknown

/-- Reads a document, or tells why it cannot be read. -/
def parse (stx : DocumentSyntax) (text : String) : Except String Json :=
  match stx with
  | json => Json.ofText text
  | yaml => Yaml.ofText text
  | unknown =>
    match Json.ofText text with
    | .ok value => .ok value
    | .error _ => Yaml.ofText text

end DocumentSyntax

end ApiContract
