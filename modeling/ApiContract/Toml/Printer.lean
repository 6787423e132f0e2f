import ApiContract.Number.Shortest
import ApiContract.Toml.Value

/-!
# Writing TOML

A table is written as its values, one a line, and after them its tables, each under a heading. A
text is written in single quotes if it holds a double quote or a backslash and single quotes can
hold it, and in double quotes otherwise; a text of several lines stands between three quotes. An
array of two items or more has a line for each.

## Texts

The choice between quotes is for the reader of a file; every text can be written in double quotes,
where what cannot stand for itself is escaped. `Proofs.Toml.Quoted` reads each of the four forms
back.

## Tables

`tableParts` lists the parts of a document: a part is the values of one table under its heading. A
table that holds nothing but tables needs no heading, and an empty one has one. Parts are then
parted by empty lines.
-/

namespace ApiContract.Toml

/-! ### Texts -/

/-- Whether a character can only be written as an escape. -/
def isControl (c : Char) : Bool := c.toNat < 0x20 || c == '\x7f'

/-- A code point as an escape of four hexadecimal digits. -/
def controlEscape (c : Char) : List Char :=
  let digits := (Nat.toDigits 16 c.toNat).map Char.toUpper
  '\\' :: 'u' :: (List.replicate (4 - digits.length) '0' ++ digits)

/-- A character between double quotes; a line feed stands for itself if there are three of them. -/
def escaped (isMultiline : Bool) (c : Char) : List Char :=
  if c = '\x08' then ['\\', 'b']
  else if c = '\t' then ['\\', 't']
  else if c = '\n' then (if isMultiline then ['\n'] else ['\\', 'n'])
  else if c = '\x0c' then ['\\', 'f']
  else if c = '\r' then ['\\', 'r']
  else if c = '"' then ['\\', '"']
  else if c = '\\' then ['\\', '\\']
  else if isControl c then controlEscape c
  else [c]

/-- Whether three single quotes follow one another somewhere. -/
def hasTripleQuote : List Char → Bool
  | [] => false
  | c :: rest => ['\'', '\'', '\''].isPrefixOf (c :: rest) || hasTripleQuote rest

/-- Whether a text is written in single quotes, where nothing is escaped. -/
def isLiteral (cs : List Char) : Bool :=
  cs.any (fun c ↦ c == '"' || c == '\\') &&
    cs.all (fun c ↦ !isControl c || c == '\t' || c == '\n') &&
    !hasTripleQuote cs && cs.getLast? != some '\''

/-- A text with its quotes. -/
def quoted (s : String) : String :=
  let cs := s.toList
  let isMultiline := cs.contains '\n'
  if isLiteral cs then
    if isMultiline then "'''\n" ++ s ++ "'''"
    else if cs.contains '\'' then "'''" ++ s ++ "'''"
    else "'" ++ s ++ "'"
  else
    let body := String.ofList (cs.flatMap (escaped isMultiline))
    if isMultiline then "\"\"\"\n" ++ body ++ "\"\"\"" else "\"" ++ body ++ "\""

/-- A key: in double quotes unless its characters admit it bare. -/
def keyText (key : String) : String :=
  if !key.isEmpty && key.toList.all isBareKeyChar then key
  else "\"" ++ String.ofList (key.toList.flatMap (escaped false)) ++ "\""

/-! ### Values and tables -/

/-- How a finite number is laid out: never with an exponent, always with a point. -/
def numberLayout : FloatLayout := ⟨fun _ ↦ true, ".0", ""⟩

/-- A number that need not be finite. -/
def floatText : FloatReading → String
  | .finite x => numberLayout.render x
  | .infinite negative => if negative then "-inf" else "inf"
  | .notANumber => "nan"

/-- Items between brackets: on one line if there is one item or none, and otherwise a line each. -/
def bracketed : List String → String
  | [] => "[]"
  | [item] => "[" ++ item ++ "]"
  | items => "[" ++ String.join (items.map fun item ↦ "\n    " ++ item ++ ",") ++ "\n]"

mutual

/-- A value, as it stands behind its key. -/
def Value.inline : Value → String
  | .text s => quoted s
  | .int n => toString n
  | .float x => floatText x
  | .bool b => if b then "true" else "false"
  | .moment s => s
  | .array items => bracketed (inlineItems items)
  | .table [] => "\x7b\x7d"
  | .table entries => "\x7b " ++ String.intercalate ", " (inlineEntries entries) ++ " \x7d"

/-- Values, each as it stands in an array. -/
def inlineItems : List Value → List String
  | [] => []
  | item :: rest => item.inline :: inlineItems rest

/-- Entries, each with its key. -/
def inlineEntries : List (String × Value) → List String
  | [] => []
  | (key, value) :: rest => (keyText key ++ " = " ++ value.inline) :: inlineEntries rest

end

/-- The lines of a table's values. -/
def valueLines : List (String × Value) → List String
  | [] => []
  | (key, value) :: rest =>
    if value.isTable then valueLines rest
    else (keyText key ++ " = " ++ value.inline ++ "\n") :: valueLines rest

mutual

/-- The parts of the tables among a table's entries: each is the values of one table under its
heading. A table that holds nothing but tables needs no heading. The first argument is the path that
leads there. -/
def tableParts (path : List String) : List (String × Value) → List String
  | [] => []
  | (key, value) :: rest => valueParts (path ++ [keyText key]) value ++ tableParts path rest

/-- The parts of a table at a path; a value that is no table has none. -/
def valueParts (path : List String) : Value → List String
  | .table entries =>
    let lines := valueLines entries
    let own :=
      if lines.isEmpty && !entries.isEmpty then []
      else ["[" ++ String.intercalate "." path ++ "]\n" ++ String.join lines]
    own ++ tableParts path entries
  | _ => []

end

/-- The text of a document: the values that stand in no table, and then the tables, with an empty
line between two parts. -/
def render (document : List (String × Value)) : String :=
  let first := valueLines document
  String.intercalate "\n" ((if first.isEmpty then [] else [String.join first]) ++
    tableParts [] document)

end ApiContract.Toml
