import ApiContract.Json.Basic
import ApiContract.Number.Decimal
import Mathlib.Algebra.Order.Field.Power
import Mathlib.Tactic.FieldSimp
import Mathlib.Tactic.Positivity
import Mathlib.Tactic.Ring

/-!
# Numbers of the format

A `Binary64` is a sign, a mantissa and an exponent, and nothing in its type keeps a mantissa within
fifty-three bits or an exponent within the format. This module states what the numbers of the format
are (`Binary64.IsNormal`) and proves that every operation which gives a number gives one of them.

## The normal form

A number of the format has a mantissa below `2 ^ 53` and an exponent from `-1074` to `971`, and a
mantissa below `2 ^ 52` only at the least exponent: those are zero and the subnormal numbers. There
is no infinity: beyond the largest number there is no result at all, and the readers say so.

## Rounding

All arithmetic is exact up to one step, the rounding of a ratio (`Binary64.roundRatio?`), and so is
the argument. `exponentFor_spec` says which exponent is taken for a ratio that is not zero: the
least one of the format at which the ratio is below `2 ^ 53`. The nearest integer to a ratio lies
between the integers that bound it (`nearestEven_le`, `le_nearestEven`); so the mantissa has
fifty-three bits, or it has fewer and the exponent is the least, or it has just become `2 ^ 53`, and
then the exponent is raised by one. The ratios are compared as rational numbers, where dividing by a
power of two needs no case for its sign.

## Where the numbers come from

Sums are not needed: numbers are made of natural numbers and integers, of products and quotients by
powers of ten, and of decimal texts. A quotient is a number of the format only if the divisor is not
zero, and the one divisor in use, a power of ten up to `10 ^ 308`, is checked not to be
(`mantissa_ofNat_pow_ne_zero`).
-/

namespace ApiContract.Binary64

/-- The number is in the normal form of the format. -/
structure IsNormal (x : Binary64) : Prop where
  mantissa_lt : x.mantissa < 2 ^ 53
  exponent_ge : -1074 ≤ x.exponent
  exponent_le : x.exponent ≤ 971
  exponent_eq : x.mantissa < 2 ^ 52 → x.exponent = -1074

theorem isNormal_zero (negative : Bool) : (zero negative).IsNormal :=
  ⟨Nat.two_pow_pos 53, Int.le_refl _, show (-1074 : Int) ≤ 971 by decide, fun _ ↦ rfl⟩

theorem IsNormal.neg {x : Binary64} (h : x.IsNormal) : x.neg.IsNormal := ⟨h.1, h.2, h.3, h.4⟩

/-! ### Rounding to an integer -/

/-- A ratio below an integer is not rounded beyond it. -/
theorem nearestEven_le {num den bound : Nat} (h : num < den * bound) :
    nearestEven num den ≤ bound := by
  have hquotient : num / den < bound := Nat.div_lt_of_lt_mul h
  rw [nearestEven]
  split_ifs <;> omega

/-- A ratio that is an integer or above it is not rounded below it. -/
theorem le_nearestEven {num den bound : Nat} (hden : 0 < den) (h : den * bound ≤ num) :
    bound ≤ nearestEven num den := by
  have hquotient : bound ≤ num / den := (Nat.le_div_iff_mul_le hden).2 (Nat.mul_comm den _ ▸ h)
  rw [nearestEven]
  split_ifs <;> omega

/-! ### The exponent -/

variable {num den : Nat}

theorem scaleDown_pos (hden : 0 < den) (exponent : Int) : 0 < (scaleDown num den exponent).2 :=
  Nat.mul_pos hden (Nat.pow_pos (by decide))

/-- Scaling down divides the ratio by a power of two. -/
theorem scaleDown_ratio (num den : Nat) (exponent : Int) :
    ((scaleDown num den exponent).1 : ℚ) / (scaleDown num den exponent).2 =
      (num : ℚ) / den / 2 ^ exponent := by
  have hpower : (2 : ℚ) ^ exponent = 2 ^ exponent.toNat / 2 ^ (-exponent).toNat := by
    rw [← zpow_natCast, ← zpow_natCast, ← zpow_sub₀ two_ne_zero]
    congr 1
    omega
  rw [scaleDown, hpower]
  push_cast [Nat.pow_eq]
  field_simp

/-- What is compared after scaling down is the ratio with a power of two. -/
theorem scaleDown_lt_iff (hden : 0 < den) (exponent : Int) (k : Nat) :
    (scaleDown num den exponent).1 < (scaleDown num den exponent).2 * 2 ^ k ↔
      (num : ℚ) / den < 2 ^ (exponent + k) := by
  have hpos : (0 : ℚ) < (scaleDown num den exponent).2 := by
    exact_mod_cast scaleDown_pos hden exponent
  rw [zpow_add₀ two_ne_zero, ← div_lt_iff₀' (by positivity), ← scaleDown_ratio, div_lt_iff₀' hpos,
    zpow_natCast]
  exact_mod_cast Iff.rfl

/-- A ratio is below the power of two that the lengths of its parts allow at most. -/
theorem ratio_lt (num : Nat) (hden : 0 < den) :
    (num : ℚ) / den < 2 ^ ((num.log2 : Int) - den.log2 + 1) := by
  have hnum : (num : ℚ) < 2 ^ (num.log2 + 1) := by exact_mod_cast Nat.lt_log2_self
  have hlow : (2 : ℚ) ^ den.log2 ≤ den := by exact_mod_cast Nat.log2_self_le hden.ne'
  have hpower :
      (2 : ℚ) ^ ((num.log2 : Int) - den.log2 + 1) = 2 ^ (num.log2 + 1) / 2 ^ den.log2 := by
    rw [← zpow_natCast, ← zpow_natCast, ← zpow_sub₀ two_ne_zero]
    congr 1
    push_cast
    ring
  rw [hpower]
  exact div_lt_div₀ hnum hlow (by positivity) (by positivity)

/-- A ratio is not below the power of two that the lengths of its parts allow at least. -/
theorem le_ratio (hnum : num ≠ 0) (hden : 0 < den) :
    (2 : ℚ) ^ ((num.log2 : Int) - den.log2 - 1) ≤ (num : ℚ) / den := by
  have hlow : (2 : ℚ) ^ num.log2 ≤ num := by exact_mod_cast Nat.log2_self_le hnum
  have hhigh : (den : ℚ) ≤ 2 ^ (den.log2 + 1) := by exact_mod_cast Nat.lt_log2_self.le
  have hpower :
      (2 : ℚ) ^ ((num.log2 : Int) - den.log2 - 1) = 2 ^ num.log2 / 2 ^ (den.log2 + 1) := by
    rw [← zpow_natCast, ← zpow_natCast, ← zpow_sub₀ two_ne_zero]
    congr 1
    push_cast
    ring
  rw [hpower]
  exact div_le_div₀ (by positivity) hlow (by exact_mod_cast hden) hhigh

/-- Of the exponents that the format has, the one that is chosen is the least at which the ratio is
below `2 ^ 53`. -/
theorem exponentFor_spec (hnum : num ≠ 0) (hden : 0 < den) :
    -1074 ≤ exponentFor num den ∧ (num : ℚ) / den < 2 ^ (exponentFor num den + 53) ∧
      (exponentFor num den = -1074 ∨ (2 : ℚ) ^ (exponentFor num den + 52) ≤ (num : ℚ) / den) := by
  have hone : (1 : ℚ) ≤ 2 := one_le_two
  have hhigh := ratio_lt num hden
  have hlow := le_ratio hnum hden
  rw [exponentFor]
  generalize hguess : max ((num.log2 : Int) - den.log2 - 53) (-1074) = guess
  dsimp only
  split_ifs with hfits
  · have hbelow := (scaleDown_lt_iff hden guess 53).1 hfits
    refine ⟨by omega, hbelow, ?_⟩
    by_cases hleast : guess = -1074
    · exact .inl hleast
    · exact .inr ((zpow_le_zpow_right₀ hone (by omega)).trans hlow)
  · have habove := not_lt.1 (mt (scaleDown_lt_iff hden guess 53).2 hfits)
    refine ⟨by omega, hhigh.trans_le (zpow_le_zpow_right₀ hone (by omega)), .inr ?_⟩
    rwa [add_assoc]

/-- **A ratio is rounded to a number of the format**, if it is not beyond the largest one. -/
theorem isNormal_of_roundRatio? {negative : Bool} {x : Binary64} (hden : 0 < den)
    (h : roundRatio? negative num den = some x) : x.IsNormal := by
  rw [roundRatio?] at h
  split_ifs at h with hnum
  · exact Option.some.inj h ▸ isNormal_zero negative
  obtain ⟨hge, hhigh, hlow⟩ := exponentFor_spec hnum hden
  generalize exponentFor num den = exponent at h hge hhigh hlow
  have hle : nearestEven (scaleDown num den exponent).1 (scaleDown num den exponent).2 ≤ 2 ^ 53 :=
    nearestEven_le ((scaleDown_lt_iff hden exponent 53).2 hhigh)
  have hfull : exponent = -1074 ∨
      2 ^ 52 ≤ nearestEven (scaleDown num den exponent).1 (scaleDown num den exponent).2 :=
    hlow.imp_right fun hlow ↦ le_nearestEven (scaleDown_pos hden exponent)
      (not_lt.1 (mt (scaleDown_lt_iff hden exponent 52).1 (not_lt.2 hlow)))
  dsimp only at h
  generalize nearestEven (scaleDown num den exponent).1 (scaleDown num den exponent).2 = mantissa
    at h hle hfull
  split_ifs at h with hcarry hlarge hlarge
  -- A carry leaves the least mantissa of fifty-three bits, one exponent higher.
  · obtain rfl := Option.some.inj h
    refine ⟨show 2 ^ 52 < 2 ^ 53 by decide, show -1074 ≤ exponent + 1 by omega, not_lt.1 hlarge, ?_⟩
    exact fun hsmall ↦ absurd hsmall (lt_irrefl (2 ^ 52))
  · obtain rfl := Option.some.inj h
    refine ⟨lt_of_le_of_ne hle hcarry, hge, not_lt.1 hlarge, fun hsmall ↦ ?_⟩
    exact hfull.resolve_right (not_le.2 hsmall)

/-! ### Operations -/

theorem ratio_den_pos (x : Binary64) : 0 < x.ratio.2 := Nat.pow_pos (by decide)

/-- The default of `ofNat`, which a number beyond the format would get, is normal too. -/
theorem isNormal_ofNat (n : Nat) : (ofNat n).IsNormal := by
  rw [ofNat]
  rcases hround : roundRatio? false n 1 with - | x
  · exact isNormal_zero false
  · exact isNormal_of_roundRatio? Nat.one_pos hround

/-- An integer is rounded to a number of the format. -/
theorem isNormal_ofInt (i : Int) : (ofInt i).IsNormal := by
  rw [ofInt]
  rcases hround : roundRatio? (decide (i < 0)) i.natAbs 1 with - | x
  · exact isNormal_zero false
  · exact isNormal_of_roundRatio? Nat.one_pos hround

/-- **A product is a number of the format**, if it is not beyond the largest one. -/
theorem isNormal_of_mul? {x y z : Binary64} (h : x.mul? y = some z) : z.IsNormal :=
  isNormal_of_roundRatio? (Nat.mul_pos x.ratio_den_pos y.ratio_den_pos) h

/-- A quotient is a number of the format if the divisor is not zero. -/
theorem isNormal_of_div? {x y z : Binary64} (hy : y.mantissa ≠ 0) (h : x.div? y = some z) :
    z.IsNormal := by
  have hnum : 0 < y.ratio.1 := Nat.mul_pos (Nat.pos_of_ne_zero hy) (Nat.pow_pos (by decide))
  exact isNormal_of_roundRatio? (Nat.mul_pos x.ratio_den_pos hnum) h

/-- Digits far below the format are taken as zero, far above it there is no number. -/
theorem isNormal_of_ofDecimal? {negative : Bool} {digits : Nat} {exponent : Int} {x : Binary64}
    (h : ofDecimal? negative digits exponent = some x) : x.IsNormal := by
  rw [ofDecimal?] at h
  split_ifs at h
  · exact Option.some.inj h ▸ isNormal_zero negative
  · exact isNormal_of_roundRatio? (Nat.pow_pos (by decide)) h

/-- The powers of ten up to the largest one that the format holds are not rounded to zero. -/
theorem mantissa_ofNat_pow_ne_zero : ∀ n ≤ 308, (ofNat (Nat.pow 10 n)).mantissa ≠ 0 := by
  decide +kernel

end ApiContract.Binary64

namespace ApiContract.FloatReading

/-- A text without a sign is read as a number of the format, if it is a finite one. -/
theorem isNormal_of_unsigned? {negative : Bool} {cs : List Char} {x : Binary64}
    (h : unsigned? negative cs = some (.finite x)) : x.IsNormal := by
  rw [unsigned?] at h
  dsimp only at h
  split_ifs at h
  obtain ⟨exponent, -, h⟩ := Option.bind_eq_some_iff.1 h
  obtain ⟨digits, -, h⟩ := Option.map_eq_some_iff.1 h
  split at h
  · next hvalue => exact finite.inj h ▸ Binary64.isNormal_of_ofDecimal? hvalue
  · exact absurd h nofun

/-- **A finite number that is read from its text is one of the format.** -/
theorem isNormal_of_finite? {s : String} {x : Binary64} (h : finite? s = some x) :
    x.IsNormal := by
  rw [finite?] at h
  split at h
  · next value hread =>
    obtain rfl := Option.some.inj h
    rw [ofText?] at hread
    dsimp only at hread
    split_ifs at hread
    · exact absurd hread nofun
    · exact absurd hread nofun
    · exact isNormal_of_unsigned? hread
  · exact absurd h nofun

end ApiContract.FloatReading

namespace ApiContract

/-- Integers of sixty-four bits, with or without a sign, and doubles of the format. -/
def Number.InRange : Number → Prop
  | .int i => -2 ^ 63 ≤ i ∧ i < 2 ^ 64
  | .float x => x.IsNormal

end ApiContract
