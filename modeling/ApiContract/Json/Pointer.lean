import ApiContract.Json.Basic
import ApiContract.Text.Basic

/-!
# References into a document

A local reference is `#` alone, for the document itself, or `#/` and segments with `/` between them.
A segment names a field of an object or, in decimal, an index of an array; in it `~1` stands for `/`
and `~0` for `~`. `resolve?` follows a reference and `referenceName?` reads the name of its target
off its last segment.

## Escapes

`unescape` reads a segment in one pass, `escape` writes one in one pass. The usual description
replaces one escape in the whole text and then the other, `~1` before `~0` in reading and `~` before
`/` in writing; that both give the same text is proved with the laws of pointers in
`Proofs.Json.Pointer`.

## Bounds

An index must fit into sixty-four bits, and a plus sign may stand in front of it, as in the integers
of the syntax; an index with superfluous zeros is one too. So an item of an array has more than one
reference, but the path that a reference leads along is unique.
-/

namespace ApiContract

namespace Pointer

/-- A segment with its two escapes read. -/
def unescape : List Char → List Char
  | '~' :: '1' :: rest => '/' :: unescape rest
  | '~' :: '0' :: rest => '~' :: unescape rest
  | c :: rest => c :: unescape rest
  | [] => []

/-- A key as a segment. -/
def escape : List Char → List Char
  | [] => []
  | c :: rest =>
    if c = '~' then '~' :: '0' :: escape rest
    else if c = '/' then '~' :: '1' :: escape rest
    else c :: escape rest

/-- Reading a segment that was written for a key gives the key back. -/
theorem unescape_escape (key : List Char) : unescape (escape key) = key := by
  induction key with
  | nil => rfl
  | cons c rest ih =>
    unfold escape
    split
    · next h => simp [unescape, ih, h]
    · split
      · next h => simp [unescape, ih, h]
      · next h₁ h₂ => rw [unescape, ih] <;> simp_all

/-- A written segment holds no slash. -/
theorem not_mem_escape (key : List Char) : '/' ∉ escape key := by
  induction key with
  | nil => simp [escape]
  | cons c rest ih =>
    unfold escape
    split
    · simp [ih]
    · split
      · simp [ih]
      · next h₁ h₂ => simp [ih, Ne.symm h₂]

/-- An array index in decimal digits; a plus sign may stand in front, and the number must fit into
sixty-four bits. -/
def index? (segment : List Char) : Option Nat :=
  let digits := match segment with
    | '+' :: rest => rest
    | other => other
  if digits.all Char.isDigit then (Text.readNat? 10 digits).filter (· < Nat.pow 2 64) else none

/-- One step into a value. -/
def step? (segment : List Char) : Json → Option Json
  | .object fields => field? (String.ofList segment) fields
  | .array items => (index? segment).bind fun i ↦ items[i]?
  | _ => none

/-- Steps into a value, one after the other. -/
def walk? : List (List Char) → Json → Option Json
  | [], value => some value
  | segment :: rest, value => (step? (unescape segment) value).bind (walk? rest)

/-- The segments of a local reference; none for the document itself. -/
def segments? : List Char → Option (List (List Char))
  | ['#'] => some []
  | '#' :: '/' :: path => some (path.splitOn '/')
  | _ => none

/-- The value that a local reference names. -/
def resolve? (root : Json) (reference : String) : Option Json :=
  (segments? reference.toList).bind fun segments ↦ walk? segments root

/-- The name of a reference's target: its last segment, unless that is empty or the bare `#`. -/
def referenceName? (reference : String) : Option String :=
  match (reference.toList.splitOn '/').getLast? with
  | none => none
  | some last =>
    if last.isEmpty ∨ last = ['#'] then none else some (String.ofList (unescape last))

end Pointer

end ApiContract
