import ApiContract.Text.Basic

/-!
# Version numbers

Semantic versions: three numbers, then optionally a pre-release after `-` and build data after `+`,
both dot-separated. The `openapi` field may leave out the second and third number.

The reader takes one number after another off the text, and what is left must be a suffix of the two
kinds. Numbers have no superfluous zeros and fit into sixty-four bits. Only the three numbers are
kept: the linter asks for the first of them, and for whether the text is a version.
-/

namespace ApiContract

/-- The three numbers of a version. -/
structure Version where
  major : Nat
  minor : Nat
  patch : Nat
  deriving DecidableEq, Repr

namespace Version

/-- A number without superfluous zeros that fits into sixty-four bits, and what follows it. -/
def number? (cs : List Char) : Option (Nat × List Char) :=
  let digits := cs.takeWhile Char.isDigit
  if digits.head? == some '0' && digits.length > 1 then none
  else
    ((Text.readNat? 10 digits).filter (· < Nat.pow 2 64)).map fun n ↦
      (n, cs.dropWhile Char.isDigit)

/-- What follows a dot. -/
def afterDot? : List Char → Option (List Char)
  | '.' :: rest => some rest
  | _ => none

/-- Whether a character may stand in an identifier of a pre-release or of build data. -/
def isLabelChar (c : Char) : Bool := c.isAlphanum || c == '-'

/-- Whether an identifier is well formed; in a pre-release a number has no superfluous zeros. -/
def isLabel (strictNumbers : Bool) (label : List Char) : Bool :=
  !label.isEmpty && label.all isLabelChar &&
    !(strictNumbers && label.all Char.isDigit && label.length > 1 && label.head? == some '0')

/-- Whether a text is empty or a dot-separated list of identifiers after a mark. -/
def isLabels (mark : Char) (strictNumbers : Bool) : List Char → Bool
  | [] => true
  | c :: rest => c == mark && (rest.splitOn '.').all (isLabel strictNumbers)

/-- Whether a text may follow the numbers of a version. -/
def isSuffix (cs : List Char) : Bool :=
  isLabels '-' true (cs.takeWhile (· ≠ '+')) && isLabels '+' false (cs.dropWhile (· ≠ '+'))

/-- Reads a full version. -/
def ofChars? (cs : List Char) : Option Version := do
  let (major, rest) ← number? cs
  let (minor, rest) ← number? (← afterDot? rest)
  let (patch, rest) ← number? (← afterDot? rest)
  if isSuffix rest then some ⟨major, minor, patch⟩ else none

/-- Reads a version in which the second and third number may be missing. -/
def ofText? (text : String) : Option Version :=
  let cs := (Text.trim text).toList
  match (cs.splitOn '.').length with
  | 1 => ofChars? (cs ++ ['.', '0', '.', '0'])
  | 2 => ofChars? (cs ++ ['.', '0'])
  | _ => ofChars? cs

end Version

end ApiContract
