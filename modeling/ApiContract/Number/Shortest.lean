import ApiContract.Number.Binary64

/-!
# Shortest decimal text of a double

The digits are the fewest that read back as the same double, and of those the nearest to it; an
exact tie goes to the even last digit. Only the layout of the digits differs from one text format to
another, and a `FloatLayout` says how.

The reals that round to a double lie between the midpoints to its two neighbours, a `Basin`, with
the ends if the mantissa is even. For one count of digits after another it is tried whether a
decimal number of that length lies in the basin; only the two neighbours of the double itself on the
grid of such numbers have to be looked at. Seventeen digits always suffice.
-/

namespace ApiContract

/-- The decimal number `digits * 10 ^ exponent`. -/
structure Decimal where
  digits : Nat
  exponent : Int
  deriving DecidableEq, Repr

namespace Binary64

/-- The reals that round to a double, as numerators over one denominator: the two ends, the double
itself, and whether the ends belong to it. -/
structure Basin where
  low : Nat
  value : Nat
  high : Nat
  den : Nat
  closed : Bool

/-- The basin of a double other than zero. Below a power of two the neighbour is at half the
distance. -/
def basin (x : Binary64) : Basin :=
  let up := Nat.pow 2 (x.exponent - 2).toNat
  let den := Nat.pow 2 (2 - x.exponent).toNat
  let below := if x.mantissa = Nat.pow 2 52 ∧ x.exponent > -1074 then 1 else 2
  -- In quarters of the last place the midpoints are whole numbers, the nearer one below too.
  { low := (4 * x.mantissa - below) * up
    value := 4 * x.mantissa * up
    high := (4 * x.mantissa + 2) * up
    den := den
    closed := x.mantissa % 2 = 0 }

/-- Whether `num / den` lies in a basin. -/
def Basin.holds (b : Basin) (num den : Nat) : Bool :=
  let n := num * b.den
  let low := b.low * den
  let high := b.high * den
  if b.closed then decide (low ≤ n ∧ n ≤ high) else decide (low < n ∧ n < high)

/-- The number of decimal digits before the point of a basin's value: `10 ^ (p - 1) ≤ v < 10 ^
p`. -/
def Basin.point (b : Basin) : Int :=
  ((Nat.toDigits 10 (b.value * Nat.pow 10 400 / b.den)).length : Int) - 400

/-- The decimal number with `count` digits that lies in the basin and is nearest to its value, if
there is one: one of the two neighbours of the value on the grid of such numbers. -/
def Basin.withDigits? (b : Basin) (count : Nat) : Option Decimal :=
  let exponent := b.point - count
  let up := Nat.pow 10 exponent.toNat
  let down := Nat.pow 10 (-exponent).toNat
  let below := b.value * down / (b.den * up)
  let remainder := 2 * (b.value * down % (b.den * up))
  let first := if remainder < b.den * up ∨ (remainder = b.den * up ∧ below % 2 = 0)
    then below else below + 1
  -- The nearer one is tried first, and the other one in case it alone is inside.
  let second := if first = below then below + 1 else below
  ([first, second].find? fun digits ↦ b.holds (digits * up) down).map (⟨·, exponent⟩)

/-- A decimal number without zeros at the end of its digits; the first argument bounds their
count. -/
def stripZeros : Nat → Decimal → Decimal
  | 0, d => d
  | n + 1, d => if d.digits % 10 = 0 then stripZeros n ⟨d.digits / 10, d.exponent + 1⟩ else d

/-- The shortest decimal number that reads back as the double, which is not zero. Seventeen digits
always suffice. -/
def shortest (x : Binary64) : Decimal :=
  let b := x.basin
  stripZeros 18 (((List.range 17).findSome? fun n ↦ b.withDigits? (n + 1)).getD ⟨0, 0⟩)

end Binary64

/-- How a text format lays out the digits of a double. -/
structure FloatLayout where
  /-- Whether a number with its decimal point at this place (counted from the first digit) is
  written without an exponent. -/
  positional : Int → Bool
  /-- What follows a whole number that is written without an exponent. -/
  whole : String
  /-- The sign in front of an exponent that is not negative. -/
  plus : String

namespace FloatLayout

/-- JSON text: `1.0`, `0.00001`, `1e-6`, `1e+16`. -/
def json : FloatLayout := ⟨fun p ↦ -5 < p && p ≤ 16, ".0", "+"⟩

/-- YAML text: as in JSON, but without a sign in front of an exponent. -/
def yaml : FloatLayout := ⟨fun p ↦ -5 < p && p ≤ 16, ".0", ""⟩

/-- Diagnostic text: `1.0`, `0.0001`, `1e-5`, `1e16`. -/
def diagnostic : FloatLayout := ⟨fun p ↦ -4 < p && p ≤ 16, ".0", ""⟩

/-- Plain text: never an exponent, and whole numbers without a fraction. -/
def plain : FloatLayout := ⟨fun _ ↦ true, "", ""⟩

private def zeros (count : Int) : List Char := List.replicate count.toNat '0'

/-- The text of a decimal number other than zero. -/
def renderDecimal (layout : FloatLayout) (d : Decimal) : String :=
  let digits := Nat.toDigits 10 d.digits
  let point : Int := digits.length + d.exponent
  if layout.positional point then
    if point ≤ 0 then String.ofList ("0.".toList ++ zeros (-point) ++ digits)
    else if 0 ≤ d.exponent then String.ofList (digits ++ zeros d.exponent) ++ layout.whole
    else String.ofList (digits.take point.toNat ++ '.' :: digits.drop point.toNat)
  else
    let fraction := if digits.length = 1 then [] else '.' :: digits.drop 1
    let exponent := point - 1
    String.ofList (digits.take 1 ++ fraction) ++ "e" ++
      (if exponent < 0 then "-" else layout.plus) ++ toString exponent.natAbs

/-- The text of a double. -/
def render (layout : FloatLayout) (x : Binary64) : String :=
  let sign := if x.negative then "-" else ""
  sign ++ (if x.isZero then "0" ++ layout.whole else layout.renderDecimal x.shortest)

end FloatLayout

end ApiContract
