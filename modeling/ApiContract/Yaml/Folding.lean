import ApiContract.Yaml.Cursor

/-!
# Folded text

How a quoted or plain value that goes over several lines becomes one text: blanks around a line
ending go, a single line ending becomes a space, and of several ones the first goes.

A `Folding` is the value as far as it is read and the gap behind it, the blanks and line endings of
which it is not known yet whether they belong to the value. The next character closes the gap, and
at the end of the value a gap counts for nothing, or, between quotes, for what it stands for.
-/

namespace ApiContract.Yaml

/-- A value as far as it is read, with the gap that it is followed by. The lists are in reverse. -/
structure Folding where
  text : List Char := []
  /-- Blanks, as long as no line has ended. -/
  blanks : List Char := []
  /-- Whether a line has ended in the gap. -/
  broken : Bool := false
  /-- The first line ending of the gap; none if it was taken away by a backslash. -/
  first : List Char := []
  /-- The line endings after the first. -/
  others : List Char := []

namespace Folding

/-- Whether a gap has begun. -/
def inGap (f : Folding) : Bool := f.broken || !f.blanks.isEmpty

/-- One more blank; after a line ending it does not count. -/
def blank (f : Folding) (c : Char) : Folding :=
  if f.broken then f else { f with blanks := c :: f.blanks }

/-- One more line ending. -/
def lineEnd (f : Folding) (c : Char) : Folding :=
  if f.broken then { f with others := c :: f.others }
  else { f with blanks := [], broken := true, first := [c] }

/-- A line ending that counts for nothing. -/
def joinedLine (f : Folding) : Folding := { f with broken := true, first := [] }

/-- The value with the gap closed: what the gap stands for belongs to the text. -/
def close (f : Folding) : Folding :=
  let gap :=
    if !f.broken then f.blanks
    -- A single line feed is a space; empty lines behind it stay, and it goes.
    else if f.first == ['\n'] then (if f.others.isEmpty then [' '] else f.others)
    else f.others ++ f.first
  { text := gap ++ f.text }

/-- One more character of the value. -/
def push (f : Folding) (c : Char) : Folding := { f.close with text := c :: f.close.text }

/-- The text of the value, without a gap at its end. -/
def result (f : Folding) : String := String.ofList f.text.reverse

end Folding

end ApiContract.Yaml
