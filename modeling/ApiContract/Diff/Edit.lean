/-!
# Edits

An edit script says how an old list of lines becomes a new one: runs of lines that are kept, deleted
or inserted, each with its place in both lists.

Both lists are arrays of lines (`Sides`), and an edit holds places and a length but no lines, so
that moving an edit costs nothing. A script is a list of edits in the order of both lists.
-/

namespace ApiContract.Diff

/-- The two lists that are compared. -/
structure Sides where
  old : Array String
  new : Array String

/-- Whether a line of the old list is a line of the new one. -/
def Sides.same (s : Sides) (i j : Nat) : Bool := s.old.getD i "" == s.new.getD j ""

/-- What happens to the lines of a run. -/
inductive EditKind where
  | keep
  | delete
  | insert
  deriving DecidableEq, Repr

/-- A run of lines with one fate. The places are where the run stands in either list; lines that are
deleted stand before their place in the new list, and inserted ones before theirs in the old. -/
structure Edit where
  kind : EditKind
  old : Nat
  new : Nat
  length : Nat
  deriving DecidableEq, Repr

namespace Edit

/-- Where the run ends in the new list. -/
def newEnd (e : Edit) : Nat := if e.kind = .delete then e.new else e.new + e.length

/-- Where the run ends in the old list. -/
def oldEnd (e : Edit) : Nat := if e.kind = .insert then e.old else e.old + e.length

/-- The run, one line further up in both lists. -/
def up (e : Edit) : Edit := { e with old := e.old - 1, new := e.new - 1 }

/-- The run, one line further down in both lists. -/
def down (e : Edit) : Edit := { e with old := e.old + 1, new := e.new + 1 }

end Edit

end ApiContract.Diff
