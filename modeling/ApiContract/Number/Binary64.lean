/-!
# Finite double-precision numbers

`Binary64` holds the finite numbers of the binary64 format exactly: a sign, a mantissa and a power
of two. There is no infinity and no "not a number": an operation whose result would leave the format
answers `none`. All arithmetic is exact arithmetic on `Nat` followed by one rounding
(`Binary64.roundRatio?`), so nothing here rests on machine floating point.

## The normal form

The fields of the structure are not bounded by its type. Every operation that gives a number gives
one in the normal form of the format, with a mantissa below `2 ^ 53`; `Proofs.Number` states the
form and proves it of each of them. In normal form a number other than zero is written in one way
only, so numbers can be compared field by field.

## Rounding

A ratio is rounded by choosing an exponent (`exponentFor`), scaling numerator and denominator to it,
and taking the nearest integer, the even one in a tie. Where rounding up fills the mantissa, the
exponent is raised by one.
-/

namespace ApiContract

/-- The number `mantissa * 2 ^ exponent`, or its negative. In the normal form that every function
here produces (`Binary64.IsNormal`), the mantissa is below `2 ^ 53`, the exponent lies between
`-1074` and `971`, and a mantissa below `2 ^ 52` goes with the exponent `-1074`. -/
structure Binary64 where
  negative : Bool
  mantissa : Nat
  exponent : Int
  deriving DecidableEq, Repr

namespace Binary64

/-- Zero, with a sign. -/
def zero (negative : Bool) : Binary64 := ⟨negative, 0, -1074⟩

instance : Inhabited Binary64 := ⟨zero false⟩

/-- Whether the number is zero, of either sign. -/
def isZero (x : Binary64) : Bool := x.mantissa == 0

/-- The number with the opposite sign. -/
def neg (x : Binary64) : Binary64 := { x with negative := !x.negative }

/-- The integer nearest to `num / den`, the even one of two that are equally near. -/
def nearestEven (num den : Nat) : Nat :=
  let quotient := num / den
  let twice := 2 * (num % den)
  if twice < den then quotient
  else if den < twice then quotient + 1
  else quotient + quotient % 2

/-- Numerator and denominator of `num / den / 2 ^ exponent`. -/
def scaleDown (num den : Nat) (exponent : Int) : Nat × Nat :=
  (num * Nat.pow 2 (-exponent).toNat, den * Nat.pow 2 exponent.toNat)

/-- The exponent at which `num / den` has a mantissa of fifty-three bits, or the least one. -/
def exponentFor (num den : Nat) : Int :=
  let guess : Int := max ((num.log2 : Int) - den.log2 - 53) (-1074)
  let (n, d) := scaleDown num den guess
  -- The logarithms are rounded down, so the guess may be one too small.
  if n < d * Nat.pow 2 53 then guess else guess + 1

/-- The double nearest to `num / den`, ties to the even mantissa; `none` beyond the largest one. -/
def roundRatio? (negative : Bool) (num den : Nat) : Option Binary64 :=
  if num = 0 then some (zero negative)
  else
    let exponent := exponentFor num den
    let (n, d) := scaleDown num den exponent
    let mantissa := nearestEven n d
    let rounded : Binary64 :=
      -- Rounding up can carry into a fifty-fourth bit.
      if mantissa = Nat.pow 2 53 then ⟨negative, Nat.pow 2 52, exponent + 1⟩
      else ⟨negative, mantissa, exponent⟩
    if rounded.exponent > 971 then none else some rounded

/-- The absolute value as a fraction. -/
def ratio (x : Binary64) : Nat × Nat :=
  (x.mantissa * Nat.pow 2 x.exponent.toNat, Nat.pow 2 (-x.exponent).toNat)

/-- The double nearest to a natural number; the format holds all that matter here, and a number
beyond it is taken as zero. -/
def ofNat (n : Nat) : Binary64 := (roundRatio? false n 1).getD (zero false)

/-- The double nearest to an integer. -/
def ofInt (i : Int) : Binary64 :=
  (roundRatio? (decide (i < 0)) i.natAbs 1).getD (zero false)

/-- The rounded product. -/
def mul? (x y : Binary64) : Option Binary64 :=
  let (a, b) := x.ratio
  let (c, d) := y.ratio
  roundRatio? (x.negative != y.negative) (a * c) (b * d)

/-- The rounded quotient by a number other than zero. -/
def div? (x y : Binary64) : Option Binary64 :=
  let (a, b) := x.ratio
  let (c, d) := y.ratio
  roundRatio? (x.negative != y.negative) (a * d) (b * c)

/-- The double nearest to `digits * 10 ^ exponent`. Exponents far outside the format are answered
without computing the power. -/
def ofDecimal? (negative : Bool) (digits : Nat) (exponent : Int) : Option Binary64 :=
  let size : Int := (digits.log2 : Int) / 4 + exponent
  if digits = 0 ∨ (digits.log2 : Int) / 3 + 1 + exponent < -400 then some (zero negative)
  else if size > 400 then none
  else roundRatio? negative (digits * Nat.pow 10 exponent.toNat) (Nat.pow 10 (-exponent).toNat)

/-- The integer that the number is, if it has no fraction. -/
def toInt? (x : Binary64) : Option Int :=
  let (num, den) := x.ratio
  if num % den = 0 then
    let n : Int := num / den
    some (if x.negative then -n else n)
  else none

end Binary64

end ApiContract
