import ApiContract.Diff.Edit

/-!
# Moving edits together

A run of inserted lines may stand at several places with the same effect: if the line before the run
is that at its end, the run can move up by one line, and likewise down. Runs are moved up as far as
they go and then down, and merge with runs of their kind that they meet; so a script falls into
fewer pieces. Deleted runs stay between the lines that they stand between.

The script is kept as a `Focus`: one edit, those before it in reverse, and those after it. A step
moves the edit by one line or merges it with a neighbour, and either makes the edits on one side
fewer or shorter (`weight`), which bounds the steps. `compact` goes over the script twice, for the
deletions and for the insertions.

How a script is compacted decides which of several right diffs is printed, and nothing else: whether
a report has a diff is told by checksums.
-/

namespace ApiContract.Diff

/-- An edit of a script with the edits before it, the nearest first, and those after it. -/
structure Focus where
  before : List Edit
  edit : Edit
  after : List Edit

namespace Focus

/-- A bound on the steps that a list of edits allows. -/
def weight (edits : List Edit) : Nat := edits.foldr (fun e total ↦ e.length + 1 + total) 0

/-- The edits after a run that moved up by one line over a kept line. -/
def keptBelow (line : Edit) : List Edit → List Edit
  | e :: rest =>
    if e.kind = .keep then { e.up with length := e.length + 1 } :: rest else line :: e :: rest
  | [] => [line]

/-- The edits before a run that moved down by one line over a kept line. -/
def keptAbove (line : Edit) : List Edit → List Edit
  | e :: rest =>
    if e.kind = .keep then { e with length := e.length + 1 } :: rest else line :: e :: rest
  | [] => [line]

/-- Whether a run of inserted lines can move up over the last of the kept lines before it. -/
def canMoveUp (s : Sides) (kept e : Edit) : Bool :=
  e.kind = .insert && 0 < e.length && s.same (kept.oldEnd - 1) (e.newEnd - 1)

/-- Whether a run of inserted lines can move down over the first of the kept lines after it. -/
def canMoveDown (s : Sides) (kept e : Edit) : Bool :=
  e.kind = .insert && 0 < e.length && s.same kept.old e.new

/-- Moves the edit in focus up as far as it goes. -/
def up (s : Sides) (before : List Edit) (e : Edit) (after : List Edit) : Focus :=
  match before with
  | [] => ⟨[], e, after⟩
  | previous :: rest =>
    if previous.kind = .keep then
      match _hLength : previous.length with
      | 0 => up s rest e after
      | length + 1 =>
        if canMoveUp s previous e then
          let line : Edit := ⟨.keep, previous.oldEnd - 1, e.newEnd - 1, 1⟩
          -- The line that the run jumps over comes to stand below it.
          up s ({ previous with length := length } :: rest) e.up (keptBelow line after)
        else ⟨previous :: rest, e, after⟩
    else if previous.kind = e.kind then
      up s rest { previous with length := previous.length + e.length } after
    else up s rest e (previous :: after)
termination_by weight before
decreasing_by all_goals simp [weight] <;> omega

/-- Moves the edit in focus down as far as it goes. -/
def down (s : Sides) (before : List Edit) (e : Edit) (after : List Edit) : Focus :=
  match after with
  | [] => ⟨before, e, []⟩
  | next :: rest =>
    if next.kind = .keep then
      match _hLength : next.length with
      | 0 => down s before e rest
      | length + 1 =>
        if canMoveDown s next e then
          let line : Edit := ⟨.keep, next.old, e.new, 1⟩
          down s (keptAbove line before) e.down ({ next.down with length := length } :: rest)
        else ⟨before, e, next :: rest⟩
    else if next.kind = e.kind then
      down s before { e with length := e.length + next.length } rest
    else down s (next :: before) e rest
termination_by weight after
decreasing_by all_goals simp [weight] <;> omega

end Focus

/-- Moves the edits of one kind, from the first on. The first argument bounds the steps. -/
def compactKind (s : Sides) (kind : EditKind) : Nat → List Edit → List Edit → List Edit
  | 0, before, edits => before.reverse ++ edits
  | _ + 1, before, [] => before.reverse
  | steps + 1, before, e :: rest =>
    if e.kind = kind then
      -- Going up, a run takes in all of its kind on the way; then it goes down as far as it can.
      let raised := Focus.up s before e rest
      let lowered := Focus.down s raised.before raised.edit raised.after
      compactKind s kind steps (lowered.edit :: lowered.before) lowered.after
    else compactKind s kind steps (e :: before) rest

/-- A script with its edits moved together: the deletions first, then the insertions. -/
def compact (s : Sides) (edits : List Edit) : List Edit :=
  let steps := 2 * Focus.weight edits + 2
  let edits := compactKind s .delete steps [] edits
  compactKind s .insert (2 * Focus.weight edits + 2) [] edits

end ApiContract.Diff
