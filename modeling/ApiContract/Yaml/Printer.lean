import ApiContract.Number.Shortest
import ApiContract.Yaml.Cursor
import ApiContract.Yaml.Scalar

/-!
# YAML text of values

The block form of a value: entries on lines of their own, and texts without quotes where they can do
without. A text is quoted if it could be taken for something else, by this reader or by others.

A mapping may have keys that are no texts, and the tree of a document has only texts as keys; such a
key becomes its YAML text, and this is what the printer is for. How a text is written depends on
what is to be known of it (`TextTraits`): whether it has lines, whether its first characters mean
something, whether it would be read as a number.

A value is a list of lines until it is known where it stands, since the lines of a collection begin
on their own line behind a key and on the same line behind a dash (`Block`).
-/

namespace ApiContract.Yaml

/-! ### Texts -/

/-- What is to be known of a text to choose how it is written. -/
structure TextTraits where
  /-- Characters that may not be written as they are. -/
  hasSpecial : Bool
  /-- Line endings. -/
  hasBreak : Bool
  /-- A beginning or an indicator that a plain text may not have. -/
  hasIndicator : Bool
  /-- A space or line ending at the beginning or end. -/
  hasOuterGap : Bool
  /-- A space at the end. -/
  endsInSpace : Bool
  /-- A space after a line ending. -/
  hasBreakSpace : Bool
  /-- A line ending after a space. -/
  hasSpaceBreak : Bool

/-- Whether a character may be written as it is. -/
def isPrintable (c : Char) : Bool :=
  let n := c.toNat
  n == 0x0A || (0x20 ≤ n && n ≤ 0x7E) || (0xA0 ≤ n && n ≤ 0xD7FF) ||
    (0xE000 ≤ n && n ≤ 0xFFFD && n != 0xFEFF)

/-- Whether characters begin in a way that a plain text may not. -/
def hasLeadingIndicator : List Char → Bool
  | [] => false
  | c :: rest =>
    "#,[]\x7b\x7d&*!|>'\"%@\x60".toList.contains c ||
      ((c == '?' || c == ':' || c == '-') && endsWord rest) ||
      "---".toList.isPrefixOf (c :: rest) || "...".toList.isPrefixOf (c :: rest)

/-- Whether a colon before a blank, or a number sign after one, is among characters. -/
def hasInnerIndicator : List Char → Bool
  | c :: d :: rest =>
    (d == ':' && endsWord rest) || (d == '#' && (isBlank c || isBreak c)) ||
      hasInnerIndicator (d :: rest)
  | _ => false

/-- Whether two neighbouring characters have two properties. -/
def hasPair (p q : Char → Bool) : List Char → Bool
  | c :: d :: rest => (p c && q d) || hasPair p q (d :: rest)
  | _ => false

/-- The traits of a text. -/
def TextTraits.of (cs : List Char) : TextTraits :=
  let isGap (c : Char) : Bool := c == ' ' || isBreak c
  { hasSpecial := !cs.all isPrintable
    hasBreak := cs.any isBreak
    hasIndicator := hasLeadingIndicator cs || hasInnerIndicator cs
    hasOuterGap := ((cs.head?.map isGap).getD false) || ((cs.getLast?.map isGap).getD false)
    endsInSpace := cs.getLast? == some ' '
    hasBreakSpace := hasPair isBreak (· == ' ') cs
    hasSpaceBreak := hasPair (· == ' ') isBreak cs }

/-- How a text is written. -/
inductive TextStyle where
  | plain
  | single
  | double
  | literal
  deriving DecidableEq, Repr

/-- Whether other readers might take a text for something else. -/
def isAmbiguous (s : String) : Bool :=
  let word := Text.lower s
  (boolWord? word).isSome || isNullWord word || word.isEmpty ||
    ((s.toList.head?.map fun c ↦ c.isDigit || c == '-' || c == '.' || c == '+').getD false) ||
    ["y", "yes", "n", "no", "on", "off"].contains word

/-- The style that a text asks for: lines are kept, and a text that a plain one would not stand for
is quoted. -/
def wantedStyle (s : String) : TextStyle :=
  if s.toList.contains '\n' then .literal
  else
    match plainValue s with
    | .ok (.text _) => if isAmbiguous s then .single else .plain
    -- An integer that no reader can hold is written as it stands.
    | .error _ => .plain
    | .ok _ => .single

/-- The style that a text gets; as a key it has to fit on a line. -/
def styleOf (isKey : Bool) (s : String) : TextStyle :=
  let t := TextTraits.of s.toList
  let wanted := if isKey && t.hasBreak then .double else wantedStyle s
  let wanted :=
    if wanted == .plain && (t.hasOuterGap || t.hasBreakSpace || t.hasSpaceBreak || t.hasSpecial ||
        t.hasBreak || t.hasIndicator || (s.isEmpty && isKey)) then .single else wanted
  match wanted with
  | .single => if t.hasBreakSpace || t.hasSpaceBreak || t.hasSpecial then .double else .single
  | .literal =>
    if isKey || t.endsInSpace || t.hasSpaceBreak || t.hasSpecial then .double else .literal
  | other => other

/-- Hexadecimal digits in capitals, as many as asked for. -/
def hexText (width n : Nat) : List Char :=
  let digits := (Nat.toDigits 16 n).map Char.toUpper
  List.replicate (width - digits.length) '0' ++ digits

/-- A character between double quotes. -/
def doubleQuotedChar (c : Char) : List Char :=
  if isPrintable c && !isBreak c && c != '"' && c != '\\' then [c]
  else
    match c with
    | '\x00' => ['\\', '0']
    | '\x07' => ['\\', 'a']
    | '\x08' => ['\\', 'b']
    | '\t' => ['\\', 't']
    | '\n' => ['\\', 'n']
    | '\x0B' => ['\\', 'v']
    | '\x0C' => ['\\', 'f']
    | '\r' => ['\\', 'r']
    | '\x1B' => ['\\', 'e']
    | '"' => ['\\', '"']
    | '\\' => ['\\', '\\']
    | '\u0085' => ['\\', 'N']
    | '\u00A0' => ['\\', '_']
    | '\u2028' => ['\\', 'L']
    | '\u2029' => ['\\', 'P']
    | c =>
      if c.toNat ≤ 0xFF then '\\' :: 'x' :: hexText 2 c.toNat
      else if c.toNat ≤ 0xFFFF then '\\' :: 'u' :: hexText 4 c.toNat
      else '\\' :: 'U' :: hexText 8 c.toNat

/-- The header of a literal text: whether it begins with a gap, and how it ends. -/
def literalHeader (cs : List Char) : String :=
  let increment := match cs.head? with
    | some c => if c == ' ' || isBreak c then "2" else ""
    | none => ""
  let chomping := match cs.reverse with
    | [] => "-"
    | [c] => if isBreak c then "+" else "-"
    | c :: d :: _ => if !isBreak c then "-" else if isBreak d then "+" else ""
  "|" ++ increment ++ chomping

/-- A line of an indented text; an empty one stays empty. -/
def indented (line : String) : String := if line.isEmpty then line else "  " ++ line

/-- The lines of a text. -/
def textLines (isKey : Bool) (s : String) : List String :=
  match styleOf isKey s with
  | .plain => [s]
  | .single => ["'" ++ Text.replaceAll s "'" "''" ++ "'"]
  | .double => ["\"" ++ String.ofList (s.toList.flatMap doubleQuotedChar) ++ "\""]
  | .literal =>
    let lines := Text.split s '\n'
    -- What is behind the last line ending is no line; the header tells how the text ends.
    let lines := if lines.getLast? == some "" then lines.dropLast else lines
    literalHeader s.toList :: lines.map indented

/-! ### Values -/

/-- A floating-point number. -/
def floatText : FloatReading → String
  | .finite x => FloatLayout.yaml.render x
  | .infinite negative => if negative then "-.inf" else ".inf"
  | .notANumber => ".nan"

/-- The line of a value that has no lines of its own. -/
def wordOf? : Value → Option String
  | .null => some "null"
  | .bool b => some (if b then "true" else "false")
  | .int i => some (toString i)
  | .float x => some (floatText x)
  | .sequence [] => some "[]"
  | .mapping [] => some "\x7b\x7d"
  | _ => none

/-- The lines of a value and whether they are entries of a block. -/
structure Block where
  lines : List String
  /-- Whether the lines are the entries of a sequence. -/
  isSequence : Bool := false
  /-- Whether the lines are the entries of a mapping. -/
  isMapping : Bool := false
  /-- A tag in front of the lines. -/
  tag : Option String := none

namespace Block

/-- Whether the lines are entries. -/
def isCollection (b : Block) : Bool := b.isSequence || b.isMapping

/-- The lines of a text with a mark in front of the first and blanks in front of the others. -/
def after (mark : String) : List String → List String
  | [] => [mark]
  | first :: rest => (mark ++ " " ++ first) :: rest.map indented

/-- The lines of a text behind a mark on the same line, as they are. -/
def behind (mark : String) : List String → List String
  | [] => [mark]
  | first :: rest => (mark ++ " " ++ first) :: rest

/-- The value as an entry after a mark, in whose line it begins. -/
def entry (mark : String) (b : Block) : List String :=
  match b.tag with
  | none => if b.isCollection then after mark b.lines else behind mark b.lines
  | some tag =>
    if b.isCollection then (mark ++ " !" ++ tag) :: b.lines.map indented
    else behind (mark ++ " !" ++ tag) b.lines

/-- The value behind a key: entries begin on the next line, and those of a sequence are not
indented. -/
def behindKey (key : String) (b : Block) : List String :=
  let key := match b.tag with
    | some tag => key ++ ": !" ++ tag
    | none => key ++ ":"
  if b.isSequence then key :: b.lines
  else if b.isMapping then key :: b.lines.map indented
  else behind key b.lines

/-- The value by itself. -/
def alone (b : Block) : List String :=
  match b.tag with
  | none => b.lines
  | some tag => if b.isCollection then ("!" ++ tag) :: b.lines else behind ("!" ++ tag) b.lines

end Block

namespace Value

/-- The line of a value that can stand in front of a colon: it has to be short and have no lines of
its own. -/
def keyLine? : Value → Option String
  | .tagged tag value =>
    (match value with
      | .text s => if s.toList.any isBreak then none else (textLines true s).head?
      | value => wordOf? value).map fun line ↦ "!" ++ tag ++ " " ++ line
  | .text s =>
    if s.toList.any isBreak || 128 < s.utf8ByteSize then none else (textLines true s).head?
  | value => wordOf? value

mutual

/-- The lines of a value. -/
def block : Value → Block
  | .text s => { lines := textLines false s }
  | .sequence (item :: rest) => { lines := itemLines (item :: rest), isSequence := true }
  | .mapping (entry :: rest) => { lines := entryLines (entry :: rest), isMapping := true }
  | .tagged tag value => { value.block with tag := some tag }
  | .null => { lines := ["null"] }
  | .bool b => { lines := [if b then "true" else "false"] }
  | .int i => { lines := [toString i] }
  | .float x => { lines := [floatText x] }
  | .sequence [] => { lines := ["[]"] }
  | .mapping [] => { lines := ["\x7b\x7d"] }

/-- The lines of a sequence's items. -/
def itemLines : List Value → List String
  | [] => []
  | item :: rest => item.block.entry "-" ++ itemLines rest

/-- The lines of a mapping's entries. -/
def entryLines : List (Value × Value) → List String
  | [] => []
  | (key, value) :: rest =>
    (match key.keyLine? with
      | some line => value.block.behindKey line
      | none => key.block.entry "?" ++ value.block.entry ":") ++ entryLines rest

end

/-- The text of a value. -/
def toText (value : Value) : String := String.intercalate "\n" value.block.alone

end Value

end ApiContract.Yaml
