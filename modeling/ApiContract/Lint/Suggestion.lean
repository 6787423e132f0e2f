/-!
# Closest names

How well a pattern fits a name, by an alignment with gaps: the characters of the pattern must occur
in the name in order, and the best of all such alignments counts. A match scores sixteen, and more
at the beginning of a word or right after another match; a gap costs four for its first character
and one for each further one. Case matters only if the pattern has a capital.

## Computation

The table of best scores has a row for each character of the pattern and is computed row by row from
the one above; a cell holds the best score with a match at its place and the best score within a
gap. The name before the first possible match of a pattern's first character is dropped with its
cells (`skipTo`).

Of several candidates with one score the last is taken. What matters for findings is less which
candidate that is than that it is one of them, and names an entry of the document.
-/

namespace ApiContract

namespace Suggestion

/-- Classes of characters, as far as they tell where words begin. -/
inductive CharKind where
  | start | upper | lower | digit | hardSeparator | softSeparator
  deriving DecidableEq

/-- The class of a character. -/
def kindOf (c : Char) : CharKind :=
  if c == '\x00' then .start
  else if " /\\|()[]\x7b\x7d".toList.contains c then .hardSeparator
  else if c.isDigit then .digit
  else if c.isUpper then .upper
  else if c.isLower then .lower
  else if '!' ≤ c && c ≤ '~' then .softSeparator
  else .lower

/-- What a match is worth for its place, by the classes of the character before and of its own. -/
def placeBonus : CharKind → CharKind → Int
  | .start, _ | .hardSeparator, _ => 8
  | .softSeparator, _ => 7
  | .lower, .upper | .digit, .upper => 6
  | _, _ => 0

/-- The place bonuses of a name after a character. -/
def bonusesAfter (before : Char) : List Char → List Int
  | [] => []
  | c :: rest => placeBonus (kindOf before) (kindOf c) :: bonusesAfter c rest

/-- The place bonuses of a name; that of its first character counts twice. -/
def bonuses (name : List Char) : List Int :=
  match bonusesAfter '\x00' name with
  | [] => []
  | first :: rest => 2 * first :: rest

/-- Whether two characters match. -/
def sameChar (exact : Bool) (c p : Char) : Bool :=
  if exact then c == p else c.toLower == p.toLower

/-- A score that no alignment reaches. -/
def worst : Int := -32768

/-- The best scores up to a character of the name: of the alignments that match it, and of those
that leave it in a gap. -/
structure Cell where
  matched : Int
  skipped : Int

/-- What a match is worth by itself: a difference in case costs two. -/
def matchScore (exact : Bool) (c p : Char) : Int :=
  if !exact && c != p then 14 else 16

/-- The cells for one more character of the pattern: `name` pairs the characters with their bonuses,
`above` holds the cells of the characters before, each at the place in front of it, and `left` is
the cell in front of the first character. -/
def row (exact : Bool) (p : Char) : List (Char × Int) → List Cell → Cell → List Cell
  | (c, bonus) :: name, before :: above, left =>
    let matched :=
      if sameChar exact c p then
        -- A match right after another one is worth four at least, wherever it stands.
        matchScore exact c p + max (before.matched + max bonus 4) (before.skipped + bonus)
      else worst
    let cell : Cell := ⟨matched, max (left.matched - 4) (left.skipped - 1)⟩
    cell :: row exact p name above cell
  | _, _, _ => []

/-- Drops the name up to the first character that matches, and the cells with it. -/
def skipTo (exact : Bool) (p : Char) :
    List (Char × Int) → List Cell → List (Char × Int) × List Cell
  | (c, bonus) :: name, before :: above =>
    if sameChar exact c p then ((c, bonus) :: name, before :: above) else skipTo exact p name above
  | _, _ => ([], [])

/-- The best score of the alignments of the rest of a pattern, if there are any. The cells stand for
the places in front of the characters. -/
def align (exact : Bool) : List Char → List (Char × Int) → List Cell → Option Int
  | [], _, cells => cells.foldl (fun best cell ↦ max? best cell.matched) none
  | p :: pattern, name, cells =>
    match skipTo exact p name cells with
    | ([], _) => none
    | (name, cells) => align exact pattern (name.drop 1) (row exact p name cells ⟨worst, worst⟩)
where
  max? (best : Option Int) (score : Int) : Option Int := some (max (best.getD score) score)

/-- How well a pattern fits a name; `none` if its characters do not occur in order. -/
def score? (name pattern : String) : Option Int :=
  if pattern.isEmpty then some 0
  else
    let cs := name.toList
    align (pattern.toList.any Char.isUpper) pattern.toList (cs.zip (bonuses cs))
      (cs.map fun _ ↦ ⟨worst, -1⟩)

/-- The candidate whose name fits a pattern best, the last of several; `name` gives the name of a
candidate, if it has one. -/
def closest? (name : String → Option String) (pattern : String) (candidates : List String) :
    Option String :=
  (candidates.foldl step none).map Prod.snd
where
  step (best : Option (Int × String)) (candidate : String) : Option (Int × String) :=
    match (name candidate).bind fun n ↦ score? n pattern with
    | none => best
    | some score =>
      match best with
      | none => some (score, candidate)
      | some (top, other) => if top ≤ score then some (score, candidate) else some (top, other)

end Suggestion

end ApiContract
