import ApiContract.Json.Basic
import ApiContract.Number.Shortest

/-!
# JSON text of a document tree

Two layouts: compact, without any space, and pretty, with one entry per line and two spaces per
level. Fields keep their order. In a string only the quote, the backslash and the characters below
U+0020 are escaped.

The printer is structural: a list of items or fields has a function of its own beside that of
values. Compact text tells trees apart as far as the texts of their numbers do
(`Proofs.Json.Compact`), which is what the types and validators of listed values rest on.
-/

namespace ApiContract

namespace Json

/-- A digit of a hexadecimal number, in small letters. -/
def hexDigit (n : Nat) : Char :=
  if n < 10 then Char.ofNat ('0'.toNat + n) else Char.ofNat ('a'.toNat + (n - 10))

/-- A character inside a JSON string. -/
def escapeChar (c : Char) : List Char :=
  if c = '"' then ['\\', '"']
  else if c = '\\' then ['\\', '\\']
  else if c = '\n' then ['\\', 'n']
  else if c = '\r' then ['\\', 'r']
  else if c = '\t' then ['\\', 't']
  else if c = '\x08' then ['\\', 'b']
  else if c = '\x0c' then ['\\', 'f']
  else if c.toNat < 0x20 then
    ['\\', 'u', '0', '0', hexDigit (c.toNat / 16), hexDigit (c.toNat % 16)]
  else [c]

/-- A text as a JSON string, with its quotes. -/
def quote (s : String) : String :=
  String.ofList ('"' :: (s.toList.flatMap escapeChar ++ ['"']))

end Json

/-- The text of a number. -/
def Number.render : Number → String
  | .int value => toString value
  | .float value => FloatLayout.json.render value

namespace Json

mutual

/-- JSON text without spaces. -/
def compact : Json → String
  | null => "null"
  | bool true => "true"
  | bool false => "false"
  | number value => value.render
  | string value => quote value
  | array items => "[" ++ compactItems items ++ "]"
  | object fields => "\x7b" ++ compactFields fields ++ "\x7d"

/-- Items with commas between them. -/
def compactItems : List Json → String
  | [] => ""
  | [item] => item.compact
  | item :: rest => item.compact ++ "," ++ compactItems rest

/-- Fields with commas between them. -/
def compactFields : List (String × Json) → String
  | [] => ""
  | [(key, value)] => quote key ++ ":" ++ value.compact
  | (key, value) :: rest => quote key ++ ":" ++ value.compact ++ "," ++ compactFields rest

end

/-- The indentation of a level. -/
def indent (level : Nat) : String :=
  String.ofList (List.replicate (2 * level) ' ')

mutual

/-- JSON text with one entry per line; an empty array or object stays on its line. -/
def pretty (level : Nat) : Json → String
  | null => "null"
  | bool true => "true"
  | bool false => "false"
  | number value => value.render
  | string value => quote value
  | array [] => "[]"
  | array (item :: rest) => "[\n" ++ prettyItems (level + 1) (item :: rest) ++ indent level ++ "]"
  | object [] => "\x7b\x7d"
  | object (entry :: rest) =>
    "\x7b\n" ++ prettyFields (level + 1) (entry :: rest) ++ indent level ++ "\x7d"

/-- Items, one per line. -/
def prettyItems (level : Nat) : List Json → String
  | [] => ""
  | [item] => indent level ++ pretty level item ++ "\n"
  | item :: rest => indent level ++ pretty level item ++ ",\n" ++ prettyItems level rest

/-- Fields, one per line. -/
def prettyFields (level : Nat) : List (String × Json) → String
  | [] => ""
  | [(key, value)] => indent level ++ quote key ++ ": " ++ pretty level value ++ "\n"
  | (key, value) :: rest =>
    indent level ++ quote key ++ ": " ++ pretty level value ++ ",\n" ++ prettyFields level rest

end

/-- The text of a scalar that may stand for text: a string, or a number as it is written. -/
def scalarText? : Json → Option String
  | string value => some value
  | number value => some value.render
  | _ => none

end Json

end ApiContract
