import ApiContract.Diff.Compaction
import ApiContract.Diff.Script

/-!
# Unified diffs

The text of a comparison: a heading with the names of both sides, then hunks, each with a line that
says which lines it covers and with up to three lines around the changes that stay the same.

Lines are compared with their endings, so a file without an ending at its end differs from one that
has it; such a line is followed by a note. Neighbouring deletions and insertions form one block of
the script, and hunks are parted where more unchanged lines stand between two blocks of changes than
belong around both. Two equal texts have no hunk, and no heading either.
-/

namespace ApiContract.Diff

/-- The number of unchanged lines around a change. -/
def contextSize : Nat := 3

/-- The lines of a text, each with its ending: a line feed, a carriage return, or both. The first
argument holds the beginning of the current line in reverse. -/
def endedLines : List Char → List Char → List (List Char)
  | [], [] => []
  | line, [] => [line.reverse]
  | line, '\r' :: '\n' :: rest => ('\n' :: '\r' :: line).reverse :: endedLines [] rest
  | line, c :: rest =>
    if c = '\r' ∨ c = '\n' then (c :: line).reverse :: endedLines [] rest
    else endedLines (c :: line) rest

/-- The lines of a text, each with its ending. -/
def linesOf (text : String) : Array String :=
  ((endedLines [] text.toList).map String.ofList).toArray

/-- Whether a line has an ending. -/
def isEnded (line : String) : Bool :=
  match line.toList.getLast? with
  | some c => c == '\n' || c == '\r'
  | none => false

/-- A stretch of both sides: either the same lines, or lines that replace others. -/
structure Block where
  kept : Bool
  old : Nat
  oldLength : Nat
  new : Nat
  newLength : Nat
  deriving DecidableEq, Repr

/-- The total length of the edits of a kind. -/
def lengthOf (kind : EditKind) (edits : List Edit) : Nat :=
  (edits.filter fun e ↦ e.kind = kind).foldr (fun e total ↦ e.length + total) 0

/-- The block of neighbouring edits that are all kept or all changes. -/
def blockOf? (edits : List Edit) : Option Block :=
  edits.head?.map fun first ↦
    if first.kind = .keep then
      let length := lengthOf .keep edits
      ⟨true, first.old, length, first.new, length⟩
    else
      -- A change without lines on one side stands there where its other side does.
      let deletion := (edits.find? fun e ↦ e.kind = .delete).getD first
      let insertion := (edits.find? fun e ↦ e.kind = .insert).getD first
      ⟨false, deletion.old, lengthOf .delete edits, insertion.new, lengthOf .insert edits⟩

/-- A script as blocks. -/
def blocks (edits : List Edit) : List Block :=
  (edits.splitBy fun a b ↦ (a.kind = .keep) == (b.kind = .keep)).filterMap blockOf?

namespace Block

/-- The last lines of a kept block, as many as stand around a change. -/
def ending (b : Block) : Block :=
  let dropped := b.oldLength - contextSize
  { b with old := b.old + dropped, oldLength := b.oldLength - dropped
           new := b.new + dropped, newLength := b.newLength - dropped }

/-- The first lines of a kept block, as many as stand around a change. -/
def beginning (b : Block) : Block :=
  { b with oldLength := min b.oldLength contextSize, newLength := min b.newLength contextSize }

/-- The lines of a block, each after its mark. -/
def lines (s : Sides) (b : Block) : List (String × String) :=
  let take (side : Array String) (start count : Nat) : List String :=
    (side.extract start (start + count)).toList
  if b.kept then (take s.old b.old b.oldLength).map (" ", ·)
  else (take s.old b.old b.oldLength).map ("-", ·) ++ (take s.new b.new b.newLength).map ("+", ·)

end Block

/-- The first block without the lines too far in front of a change. -/
def trimFirst : List Block → List Block
  | b :: rest => if b.kept then b.ending :: rest else b :: rest
  | [] => []

/-- The last block without the lines too far behind a change. -/
def trimLast : List Block → List Block
  | [] => []
  | [b] => if b.kept then [b.beginning] else [b]
  | b :: rest => b :: trimLast rest

/-- Hunks: the blocks are parted where more unchanged lines stand between two changes than belong
around both. The first argument holds the blocks of the current hunk in reverse. -/
def hunksFrom : List Block → List Block → List (List Block)
  | current, [] => if current.any fun b ↦ !b.kept then [current.reverse] else []
  | current, b :: rest =>
    -- The block is in both hunks, with its beginning in one and its ending in the other.
    if b.kept && 2 * contextSize < b.oldLength then
      (b.beginning :: current).reverse :: hunksFrom [b.ending] rest
    else hunksFrom (b :: current) rest

/-- The hunks of a script. -/
def hunks (edits : List Edit) : List (List Block) :=
  hunksFrom [] (trimLast (trimFirst (blocks edits)))

/-- The text for a range of lines: its first line and its length, which is left out if it is one; an
empty range is named after the line in front of it. -/
def rangeText (start length : Nat) : String :=
  if length = 1 then toString (start + 1)
  else if length = 0 then toString start ++ ",0"
  else toString (start + 1) ++ "," ++ toString length

/-- The line that says which lines a hunk covers. -/
def hunkHeading (hunk : List Block) : String :=
  match hunk.head?, hunk.getLast? with
  | some first, some last =>
    "@@ -" ++ rangeText first.old (last.old + last.oldLength - first.old) ++
      " +" ++ rangeText first.new (last.new + last.newLength - first.new) ++ " @@\n"
  | _, _ => ""

/-- A marked line; one without an ending is followed by a note. -/
def markedLine (marked : String × String) : String :=
  marked.1 ++ marked.2 ++
    (if isEnded marked.2 then "" else "\n\\ No newline at end of file\n")

/-- The text of a hunk. -/
def hunkText (s : Sides) (hunk : List Block) : String :=
  hunkHeading hunk ++ String.join ((hunk.flatMap (Block.lines s)).map markedLine)

/-- The comparison of two texts, which go by the given names. -/
def unified (oldName newName oldText newText : String) : String :=
  let s : Sides := ⟨linesOf oldText, linesOf newText⟩
  match hunks (compact s (script s)) with
  | [] => ""
  | hunks =>
    "--- " ++ oldName ++ "\n+++ " ++ newName ++ "\n" ++ String.join (hunks.map (hunkText s))

end ApiContract.Diff
