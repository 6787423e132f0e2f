import ApiContract.Json.Basic
import ApiContract.Text.Blank
import ApiContract.Yaml.Document
import ApiContract.Yaml.Printer
import ApiContract.Yaml.Token.Scan

/-!
# YAML documents as trees

A YAML text as the tree that the same document in JSON would be. Keys that are no texts become their
spelling, numbers that are not finite become `null`, and tags go.

Two keys with one spelling are one key, with the later value at the place of the first, as in a JSON
document. Merge keys (`<<`) have no meaning of their own. The steps before this one are in modules
of their own: characters to tokens (`Yaml.Token`), tokens to events, events to values.
-/

namespace ApiContract.Yaml

namespace Value

/-- The text that stands for a key. -/
def keyText : Value → String
  | .text s => s
  | .int i => toString i
  | .float x => floatText x
  | .bool b => if b then "true" else "false"
  | .null => "null"
  | other => Text.trim other.toText

mutual

/-- A value as a tree. -/
def toJson : Value → Json
  | .null => .null
  | .bool b => .bool b
  | .int i => .number (.int i)
  | .float (.finite x) => .number (.float x)
  | .float _ => .null
  | .text s => .string s
  | .sequence items => .array (itemsJson items)
  | .mapping entries => .object (entriesJson [] entries)
  | .tagged _ value => value.toJson

/-- Values as trees. -/
def itemsJson : List Value → List Json
  | [] => []
  | item :: rest => item.toJson :: itemsJson rest

/-- Entries as fields, after some fields; of two keys with one text the later value counts. -/
def entriesJson (fields : List (String × Json)) : List (Value × Value) → List (String × Json)
  | [] => fields
  | (key, value) :: rest => entriesJson (putField key.keyText value.toJson fields) rest

end

end Value

/-- The tree of a YAML text. -/
def read (text : String) : Except Fault Json := do
  return (← valueOfEvents scalarValue (← events (← tokens text))).toJson

/-- The tree of a YAML text, or what is wrong with the text. -/
def ofText (text : String) : Except String Json :=
  match read text with
  | .ok value => .ok value
  | .error fault => .error fault.message

end ApiContract.Yaml
