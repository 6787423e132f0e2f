/-!
# Places in a YAML text

Classes of characters, and a cursor that knows its line and column: indentation is structure in
YAML. A line ends with a line feed, a carriage return, both in this order, or one of three further
separators. The end of the text counts as blank.

A cursor is a place with the rest of the text, so scanning never looks back. Characters are skipped
by count within a line, and line endings one by one, which keeps line and column right without
looking at what is skipped.
-/

namespace ApiContract.Yaml

/-- Whether a character ends a line. -/
def isBreak (c : Char) : Bool :=
  c == '\n' || c == '\r' || c == '\u0085' || c == '\u2028' || c == '\u2029'

/-- Whether a character is a space or a tab. -/
def isBlank (c : Char) : Bool := c == ' ' || c == '\t'

/-- Whether a text begins with a blank or the end of a line, or is empty. -/
def endsWord : List Char → Bool
  | [] => true
  | c :: _ => isBlank c || isBreak c

/-- Whether a text begins with the end of a line, or is empty. -/
def endsLine : List Char → Bool
  | [] => true
  | c :: _ => isBreak c

/-- Whether a character may stand in a name: a letter, a digit, `_` or `-`. -/
def isNameChar (c : Char) : Bool := c.isAlphanum || c == '_' || c == '-'

/-- Whether a character may stand in a YAML text at all. -/
def isAdmitted (c : Char) : Bool :=
  let n := c.toNat
  n == 0x09 || n == 0x0A || n == 0x0D || (0x20 ≤ n && n ≤ 0x7E) || n == 0x85 ||
    (0xA0 ≤ n && n ≤ 0xD7FF) || (0xE000 ≤ n && n ≤ 0xFFFD) || 0x10000 ≤ n

/-- What a line ending stands for in a value: the two rare separators stand for themselves, any
other ending for a line feed. -/
def breakText (c : Char) : Char := if c == '\u2028' || c == '\u2029' then c else '\n'

/-- A place in a text: how many characters are in front of it, and in which line and column it
is. -/
structure Place where
  index : Nat
  line : Nat
  column : Nat
  deriving DecidableEq, Repr, Inhabited

namespace Place

/-- The place behind some characters of the same line. -/
def right (p : Place) (count : Nat := 1) : Place :=
  { p with index := p.index + count, column := p.column + count }

/-- The place behind a line ending of so many characters. -/
def below (p : Place) (count : Nat := 1) : Place :=
  { index := p.index + count, line := p.line + 1, column := 0 }

end Place

/-- A place, and the text from there on. -/
structure Cursor where
  place : Place
  rest : List Char
  deriving Inhabited

namespace Cursor

/-- The cursor behind some characters of the same line. -/
def skip (c : Cursor) (count : Nat := 1) : Cursor := ⟨c.place.right count, c.rest.drop count⟩

/-- The cursor behind the line ending that it stands in front of, if it stands in front of one. -/
def skipBreak (c : Cursor) : Cursor :=
  match c.rest with
  | '\r' :: '\n' :: rest => ⟨c.place.below 2, rest⟩
  | d :: rest => if isBreak d then ⟨c.place.below, rest⟩ else c
  | [] => c

/-- The characters from the cursor on that have a property, and the cursor behind them. None of them
ends a line. -/
def span (p : Char → Bool) (c : Cursor) : List Char × Cursor :=
  let taken := c.rest.takeWhile p
  (taken, ⟨c.place.right taken.length, c.rest.drop taken.length⟩)

/-- The cursor behind the characters that have a property. -/
def skipWhile (p : Char → Bool) (c : Cursor) : Cursor := (c.span p).2

/-- The cursor behind blanks and a comment. -/
def skipComment (c : Cursor) : Cursor :=
  let c := c.skipWhile isBlank
  if c.rest.head? == some '#' then c.skipWhile fun d ↦ !isBreak d else c

/-- The character in front of which the cursor stands. -/
def next? (c : Cursor) : Option Char := c.rest.head?

end Cursor

/-- Whether three characters of one kind begin a text and stand for themselves. -/
def isMarker (c : Char) : List Char → Bool
  | a :: b :: d :: rest => a == c && b == c && d == c && endsWord rest
  | _ => false

/-- Whether a line that begins here opens or ends a document. -/
def isDocumentMarker (place : Place) (rest : List Char) : Bool :=
  place.column == 0 && (isMarker '-' rest || isMarker '.' rest)

end ApiContract.Yaml
