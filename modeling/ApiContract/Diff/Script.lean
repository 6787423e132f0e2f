import ApiContract.Diff.Edit

/-!
# Shortest edit scripts

An edit script with as few deletions and insertions as possible. What two stretches of lines have in
common at their ends is kept; of what remains a point is looked for that a shortest script passes
through, and the parts on its two sides are compared each by itself.

## Finding the point

The point is found by going forwards from the beginning and backwards from the end at once. A
position in the comparison of a stretch of `n` lines with one of `m` lines is a pair `x`, `y`; its
diagonal is `x - y`. For each diagonal a sweep knows the furthest `x` that it can reach with so many
changes, and the two sweeps have met when together they cover the old stretch on one diagonal.

## Bounds

Each sweep makes one change more in every round, and the two meet after half as many rounds as there
are lines at most (`roundLimit`); so `meeting` counts its rounds down. The windows on the two sides
of a point are smaller than the one that it lies in, so `windowScript` counts the nesting down from
the number of lines. If no point were found, the window would be deleted and inserted as a whole,
which is a script too.
-/

namespace ApiContract.Diff

/-- The part of the comparison in which a script is looked for: from a line to a line on both
sides. -/
structure Window where
  oldStart : Nat
  oldEnd : Nat
  newStart : Nat
  newEnd : Nat
  deriving DecidableEq, Repr

namespace Window

/-- The number of old lines. -/
def oldLength (w : Window) : Nat := w.oldEnd - w.oldStart

/-- The number of new lines. -/
def newLength (w : Window) : Nat := w.newEnd - w.newStart

end Window

/-- The number of lines that agree from two places on, at most so many. -/
def agreeing (s : Sides) (i j : Nat) : Nat → Nat
  | 0 => 0
  | n + 1 => if s.same i j then agreeing s (i + 1) (j + 1) n + 1 else 0

/-- The number of lines that agree before two places, at most so many. -/
def agreeingBefore (s : Sides) (i j : Nat) : Nat → Nat
  | 0 => 0
  | n + 1 => if s.same (i - 1) (j - 1) then agreeingBefore s (i - 1) (j - 1) n + 1 else 0

/-- The furthest `x` on each diagonal; `offset` is the place of the diagonal zero. -/
structure Reach where
  furthest : Array Nat
  offset : Nat

namespace Reach

/-- Nothing reached yet, with room for so many changes. -/
def empty (changes : Nat) : Reach := ⟨Array.replicate (2 * changes + 3) 0, changes + 1⟩

/-- The furthest `x` on a diagonal. -/
def get (r : Reach) (diagonal : Int) : Nat := r.furthest.getD (diagonal + r.offset).toNat 0

/-- A new furthest `x` on a diagonal. -/
def set (r : Reach) (diagonal : Int) (x : Nat) : Reach :=
  { r with furthest := r.furthest.setIfInBounds (diagonal + r.offset).toNat x }

/-- Where a sweep with `d` changes enters a diagonal: by an insertion from the diagonal above or by
a deletion from the one below, whichever is further. -/
def enter (r : Reach) (d diagonal : Int) : Nat :=
  if diagonal = -d ∨ (diagonal ≠ d ∧ r.get (diagonal - 1) < r.get (diagonal + 1)) then
    r.get (diagonal + 1)
  else r.get (diagonal - 1) + 1

end Reach

/-- The diagonals that `d` changes can lead to, from `d` down to `-d`. -/
def diagonals (d : Nat) : List Int := (List.range (d + 1)).map fun (i : Nat) ↦ (d : Int) - 2 * i

/-- One round of the forward sweep: the point where it meets the backward one, or how far it
reaches. They can meet here only if the difference of the lengths is odd. -/
def sweepForward (s : Sides) (w : Window) (d : Nat) (backward : Reach) :
    List Int → Reach → Except (Nat × Nat) Reach
  | [], forward => .ok forward
  | k :: rest, forward =>
    let n := w.oldLength
    let m := w.newLength
    let delta : Int := n - m
    let x := forward.enter d k
    let y := (x : Int) - k
    let reached :=
      if x < n ∧ 0 ≤ y ∧ y < m then
        x + agreeing s (w.oldStart + x) (w.newStart + y.toNat) (min (n - x) (m - y.toNat))
      else x
    let forward := forward.set k reached
    -- The backward sweep has made `d - 1` changes, so it has been on the diagonals up to that many
    -- from its own middle, which is `delta`.
    if delta % 2 = 1 ∧ (k - delta).natAbs + 1 ≤ d ∧ n ≤ reached + backward.get (delta - k) then
      .error (x + w.oldStart, y.toNat + w.newStart)
    else sweepForward s w d backward rest forward

/-- One round of the backward sweep; `x` and `y` count from the end. The sweeps can meet here only
if the difference of the lengths is even. -/
def sweepBackward (s : Sides) (w : Window) (d : Nat) (forward : Reach) :
    List Int → Reach → Except (Nat × Nat) Reach
  | [], backward => .ok backward
  | k :: rest, backward =>
    let n := w.oldLength
    let m := w.newLength
    let delta : Int := n - m
    let x := backward.enter d k
    let y := (x : Int) - k
    let advance :=
      if x < n ∧ 0 ≤ y ∧ y < m then
        agreeingBefore s (w.oldStart + n - x) (w.newStart + m - y.toNat) (min (n - x) (m - y.toNat))
      else 0
    let reached := x + advance
    let backward := backward.set k reached
    -- Both sweeps have made `d` changes here.
    if delta % 2 = 0 ∧ (k - delta).natAbs ≤ d ∧ n ≤ reached + forward.get (delta - k) then
      .error (w.oldStart + n - reached, w.newStart + m - (y.toNat + advance))
    else sweepBackward s w d forward rest backward

/-- A point on a shortest script, found in rounds with more and more changes. -/
def meeting (s : Sides) (w : Window) : Nat → Nat → Reach → Reach → Option (Nat × Nat)
  | 0, _, _, _ => none
  | rounds + 1, d, forward, backward =>
    match sweepForward s w d backward (diagonals d) forward with
    | .error point => some point
    | .ok forward =>
      match sweepBackward s w d forward (diagonals d) backward with
      | .error point => some point
      | .ok backward => meeting s w rounds (d + 1) forward backward

/-- The number of rounds after which the sweeps have met. -/
def roundLimit (w : Window) : Nat := (w.oldLength + w.newLength + 1) / 2 + 1

/-- A run of lines, unless it is empty. -/
def run (kind : EditKind) (old new length : Nat) : List Edit :=
  if length = 0 then [] else [⟨kind, old, new, length⟩]

/-- A script for a window. The first argument bounds the nesting; a window never needs more than it
has lines. -/
def windowScript (s : Sides) : Nat → Window → List Edit
  | 0, w =>
    run .delete w.oldStart w.newStart w.oldLength ++ run .insert w.oldStart w.newStart w.newLength
  | depth + 1, w =>
    let before := agreeing s w.oldStart w.newStart (min w.oldLength w.newLength)
    let inner := { w with oldStart := w.oldStart + before, newStart := w.newStart + before }
    let after := agreeingBefore s inner.oldEnd inner.newEnd (min inner.oldLength inner.newLength)
    let inner := { inner with oldEnd := inner.oldEnd - after, newEnd := inner.newEnd - after }
    let middle :=
      if inner.oldLength = 0 ∨ inner.newLength = 0 then
        run .delete inner.oldStart inner.newStart inner.oldLength ++
          run .insert inner.oldStart inner.newStart inner.newLength
      else
        let limit := roundLimit inner
        match meeting s inner limit 0 (.empty limit) (.empty limit) with
        | some (x, y) =>
          windowScript s depth { inner with oldEnd := x, newEnd := y } ++
            windowScript s depth { inner with oldStart := x, newStart := y }
        | none =>
          run .delete inner.oldStart inner.newStart inner.oldLength ++
            run .insert inner.oldStart inner.newStart inner.newLength
    run .keep w.oldStart w.newStart before ++ middle ++ run .keep inner.oldEnd inner.newEnd after

/-- A shortest edit script. -/
def script (s : Sides) : List Edit :=
  windowScript s (s.old.size + s.new.size + 1) ⟨0, s.old.size, 0, s.new.size⟩

end ApiContract.Diff
