import ApiContract.Yaml.Cursor
import ApiContract.Yaml.Fault

/-!
# Block values

A value of several lines that are indented more than what is around them. A literal one keeps its
lines; in a folded one a single line ending between two lines that begin with no blank becomes a
space. The header says whether line endings at the end of the value stay, and may say how far it is
indented.

An indentation that is not stated is the widest of the first line with something on it and the empty
lines in front of that, and at least one column more than the block around. The lines are gathered
in reverse, with the line endings behind the last one apart, because the header decides about them
when the value ends.
-/

namespace ApiContract.Yaml

/-- What becomes of the line endings at the end of a block value. -/
inductive Chomping where
  /-- One stays. -/
  | clip
  /-- None stays. -/
  | strip
  /-- All stay. -/
  | keep
  deriving DecidableEq, Repr

/-- The header of a block value. -/
structure BlockHeader where
  chomping : Chomping := .clip
  /-- How much further than its surroundings the value is indented, if that is stated. -/
  increment : Option Nat := none

/-- The chomping that a character states. -/
def chomping? : Option Char → Option Chomping
  | some '+' => some .keep
  | some '-' => some .strip
  | _ => none

/-- An indentation that may be stated: one digit other than zero. -/
def scanIncrement (c : Cursor) : Except Fault (Option Nat × Cursor) :=
  match c.next? with
  | some d =>
    if !d.isDigit then .ok (none, c)
    else if d = '0' then .error .malformedBlockHeader
    else .ok (some (d.toNat - '0'.toNat), c.skip)
  | none => .ok (none, c)

/-- The header after the mark of a block value, up to the end of its line. -/
def scanBlockHeader (c : Cursor) : Except Fault (BlockHeader × Cursor) := do
  let (header, c) : BlockHeader × Cursor ←
    match chomping? c.next? with
    | some chomping => do
      let (increment, c) ← scanIncrement c.skip
      pure (⟨chomping, increment⟩, c)
    | none => do
      let (increment, c) ← scanIncrement c
      match increment, chomping? c.next? with
      | some n, some chomping => pure (⟨chomping, some n⟩, c.skip)
      | increment, _ => pure (⟨.clip, increment⟩, c)
  let c := c.skipComment
  if endsLine c.rest then return (header, c.skipBreak) else throw .malformedBlockHeader

/-- Skips indentation and empty lines: the line endings met, in reverse, and the widest indentation.
`indent` is zero as long as the indentation is not known. -/
def scanEmptyLines (indent : Nat) (place : Place) (endings : List Char) (widest : Nat) :
    List Char → Except Fault (List Char × Nat × Cursor)
  | [] => .ok (endings, max widest place.column, ⟨place, []⟩)
  | '\r' :: '\n' :: rest =>
    scanEmptyLines indent (place.below 2) ('\n' :: endings) (max widest place.column) rest
  | c :: rest =>
    let within := indent == 0 || place.column < indent
    if within && c == ' ' then scanEmptyLines indent place.right endings widest rest
    else if within && c == '\t' then .error .tabInIndentation
    else if isBreak c then
      scanEmptyLines indent place.below (breakText c :: endings) (max widest place.column) rest
    else .ok (endings, max widest place.column, ⟨place, c :: rest⟩)

/-- The line ending in front of the cursor as it counts in a value, and the cursor behind it. -/
def scanBreak (c : Cursor) : List Char × Cursor :=
  match c.rest with
  | [] => ([], c)
  | d :: _ => if isBreak d then ([breakText d], c.skipBreak) else ([], c)

/-- A block value as far as it is read; the lists are in reverse. -/
structure BlockText where
  text : List Char := []
  /-- The ending of the last line. -/
  ending : List Char := []
  /-- The endings of the empty lines after it. -/
  empty : List Char := []
  /-- Whether the last line begins with a blank. -/
  indented : Bool := false

/-- The value with one more line, which a folded value joins to the line before if neither begins
with a blank. -/
def BlockText.line (b : BlockText) (isLiteral : Bool) (line : List Char) : BlockText :=
  let indented := (line.head?.map isBlank).getD false
  let gap :=
    -- Folding takes the first line ending away; of empty lines in between each keeps its own.
    if !isLiteral && b.ending == ['\n'] && !b.indented && !indented then
      if b.empty.isEmpty then [' '] else b.empty
    else b.empty ++ b.ending
  { text := line.reverse ++ gap ++ b.text, indented }

/-- The whole value. -/
def BlockText.result (b : BlockText) : Chomping → String
  | .strip => String.ofList b.text.reverse
  | .clip => String.ofList (b.ending ++ b.text).reverse
  | .keep => String.ofList (b.empty ++ b.ending ++ b.text).reverse

/-- The lines of a block value. The first argument bounds their number. -/
def scanBlockLines (isLiteral : Bool) (indent : Nat) :
    Nat → BlockText → Cursor → Except Fault (BlockText × Cursor)
  | 0, b, c => .ok (b, c)
  | lines + 1, b, c =>
    if c.place.column = indent ∧ !c.rest.isEmpty then
      let (line, c) := c.span fun d ↦ !isBreak d
      let b := b.line isLiteral line
      let (ending, c) := scanBreak c
      match scanEmptyLines indent c.place [] 0 c.rest with
      | .error fault => .error fault
      | .ok (empty, _, c) => scanBlockLines isLiteral indent lines { b with ending, empty } c
    else .ok (b, c)

/-- A block value inside a block that is indented by `outer` columns, or by none if that is
negative. -/
def scanBlock (isLiteral : Bool) (outer : Int) (c : Cursor) : Except Fault (String × Cursor) := do
  let (header, c) ← scanBlockHeader c.skip
  let stated := match header.increment with
    | some n => (max outer 0).toNat + n
    | none => 0
  let (empty, widest, c) ← scanEmptyLines stated c.place [] 0 c.rest
  -- Zero stands for an indentation that the header leaves open.
  let indent := if stated = 0 then max (max widest (outer + 1).toNat) 1 else stated
  let (b, c) ← scanBlockLines isLiteral indent (c.rest.length + 1) { empty } c
  return (b.result header.chomping, c)

end ApiContract.Yaml
