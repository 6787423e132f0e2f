import ApiContract.Number.Binary64
import ApiContract.Text.Basic

/-!
# Reading decimal numbers

The text of a number: an optional sign, then digits with at most one point among or beside them,
then an optional exponent; or a word for infinity or for "not a number". A number is read as the
nearest double.

A number beyond the format is read as infinite, with its sign; that is why the result is a
`FloatReading` and not a double. Whoever needs a finite number asks for `finite?`, which has no
other answers.
-/

namespace ApiContract

/-- What a number's text stands for. -/
inductive FloatReading where
  | finite (value : Binary64)
  | infinite (negative : Bool)
  | notANumber
  deriving DecidableEq, Repr

namespace FloatReading

/-- Splits a sign off; the first part says whether it was a minus. -/
def sign : List Char → Bool × List Char
  | '-' :: rest => (true, rest)
  | '+' :: rest => (false, rest)
  | cs => (false, cs)

/-- The exponent after a number's digits: nothing, or `e`, a sign and digits. -/
def exponent? : List Char → Option Int
  | [] => some 0
  | c :: rest =>
    if c = 'e' ∨ c = 'E' then
      let (negative, digits) := sign rest
      if digits.all Char.isDigit then
        (Text.readNat? 10 digits).map fun n ↦ if negative then -(n : Int) else n
      else none
    else none

/-- An unsigned number: digits, a point and digits, an exponent; one digit at least. -/
def unsigned? (negative : Bool) (cs : List Char) : Option FloatReading :=
  let whole := cs.takeWhile Char.isDigit
  let afterWhole := cs.dropWhile Char.isDigit
  let (fraction, rest) : List Char × List Char :=
    match afterWhole with
    | '.' :: more => (more.takeWhile Char.isDigit, more.dropWhile Char.isDigit)
    | other => ([], other)
  if whole.isEmpty && fraction.isEmpty then none
  else
    (exponent? rest).bind fun exponent ↦
      (Text.readNat? 10 (whole ++ fraction)).map fun digits ↦
        match Binary64.ofDecimal? negative digits (exponent - fraction.length) with
        | some value => .finite value
        | none => .infinite negative

/-- Reads the text of a number; the words may be in any case. -/
def ofText? (s : String) : Option FloatReading :=
  let (negative, rest) := sign s.toList
  let word := String.ofList (rest.map Char.toLower)
  if word == "inf" || word == "infinity" then some (.infinite negative)
  else if word == "nan" then some .notANumber
  else unsigned? negative rest

/-- The double that a number's text stands for, if it is finite. -/
def finite? (s : String) : Option Binary64 :=
  match ofText? s with
  | some (.finite value) => some value
  | _ => none

end FloatReading

end ApiContract
