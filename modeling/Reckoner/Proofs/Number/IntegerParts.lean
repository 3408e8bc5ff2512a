import Reckoner.Proofs.Number.Arithmetic

/-!
# Integer parts

What the operations on integer parts make of a number is known from the rational number that it
denotes.  For decimals this holds without exception, however many digits stand on either side of
the point.  A floating point number is tested against the bounds of the 64-bit integers rounded
to floating point numbers: the lower bound is exact, but the upper one is rounded up, and the
number at it is let through.
-/

namespace Reckoner

namespace Decimal

/-- Floor, ceiling, fractional part, integrality and the conversion to 64-bit integers are those
of the value. -/
theorem integerParts_exact (number : Decimal) :
    number.floor.value = ⌊number.value⌋ ∧
      number.ceiling.value = ⌈number.value⌉ ∧
      number.fractionalPart.value = number.value - ⌊number.value⌋ ∧
      0 ≤ number.fractionalPart.value ∧ number.fractionalPart.value < 1 ∧
      (number.isIntegral = true ↔ ∃ whole : Int, number.value = whole) ∧
      (∀ whole, number.toInt64? = some whole ↔ toward number.value = whole ∧ IsInt64 whole) ∧
      (number.toInt64? = none ↔ ¬IsInt64 (toward number.value)) := by
  rw [value_fractionalPart, isIntegral_iff, toInt64?_eq]
  refine ⟨value_floor number, value_ceiling number, (Int.self_sub_floor _).symm, Int.fract_nonneg _,
    Int.fract_lt_one _, ?_, fun whole => int64Part?_eq_some_iff, int64Part?_eq_none_iff⟩
  rw [Int.fract_eq_zero_iff]
  exact exists_congr fun whole => eq_comm

/-- At the ends of the range only what stands in front of the point counts. -/
example :
    (⟨92233720368547758079, 1⟩ : Decimal).toInt64? = some 0x7fffffffffffffff ∧
      (⟨9223372036854775808, 0⟩ : Decimal).toInt64? = none ∧
      (⟨-92233720368547758089, 1⟩ : Decimal).toInt64? = some (-0x8000000000000000) ∧
      (⟨-9223372036854775809, 0⟩ : Decimal).toInt64? = none := by
  decide +kernel

end Decimal

namespace Binary64

open Decimal (toward toward_neg toward_intCast int64Part? int64Part?_eq_some_iff
  int64Part?_eq_none_iff)

variable {number : Binary64}

/-! ## Cutting off at the point -/

/-- The size is cut off at the point and the sign put back. -/
theorem toward_signedExtent (number : Binary64) :
    toward number.signedExtent =
      if number.isNegative then -⌊extent number.magnitude⌋ else ⌊extent number.magnitude⌋ := by
  have size : toward (extent number.magnitude) = ⌊extent number.magnitude⌋ :=
    if_pos (extent_nonneg _)
  rw [signedExtent]
  split
  · rw [toward_neg, size]
  · exact size

theorem floor_extent (number : Binary64) :
    ⌊extent number.magnitude⌋ =
      ((if 0 ≤ number.exponent then number.significand * Nat.pow 2 number.exponent.toNat
        else number.splitWhole.1 : Nat) : Int) := by
  rw [← significand_mul_pow]
  split
  next whole =>
    rw [pow_two_split whole, zpow_zero, mul_one, sub_zero]
    exact_mod_cast Int.floor_natCast _
  next fraction =>
    have units := zpow_mul_pow_toNat_neg two_ne_zero number.exponent
    rw [Int.toNat_of_nonpos (le_of_not_ge fraction), pow_zero] at units
    have unit : (2 : ℚ) ^ number.exponent = 1 / (Nat.pow 2 (-number.exponent).toNat : Nat) := by
      refine eq_one_div_of_mul_eq_one_left ?_
      push_cast [Nat.pow_eq]
      exact units
    rw [unit, mul_one_div, Rat.floor_natCast_div_natCast]
    rfl

theorem truncatedInt_eq_toward (number : Binary64) :
    number.truncatedInt = toward number.signedExtent := by
  rw [toward_signedExtent, floor_extent]
  rfl

/-! ## The upper bound of the test -/

/-- Two to the power of 63, the least integer above the range of 64-bit integers and the number
nearest to the greatest one in it. -/
def beyondInt64 : Binary64 := ⟨0x43e0000000000000⟩

theorem extent_beyondInt64 : extent beyondInt64.magnitude = (0x8000000000000000 : Int) := by
  have power := extent_power 1085
  refine power.trans ?_
  norm_num

/-- The number after it is farther away than the next integer. -/
theorem extent_beyondInt64_succ :
    (0x8000000000000000 : Int) + 1 ≤ extent (beyondInt64.magnitude + 1) := by
  have less : exponentWeight < 2 * exponentWeight := by decide
  have next : extent (beyondInt64.magnitude + 1) = extent beyondInt64.magnitude + _ :=
    @extent_succ 1085 exponentWeight less (.inr le_rfl)
  rw [next, extent_beyondInt64, leastExponent]
  norm_num

theorem floor_extent_eq_iff {magnitude : Nat} :
    ⌊extent magnitude⌋ = 0x8000000000000000 ↔ magnitude = beyondInt64.magnitude := by
  constructor
  · intro whole
    obtain ⟨lower, upper⟩ := Int.floor_eq_iff.1 whole
    rw [← extent_beyondInt64, extent_strictMono.le_iff_le] at lower
    have below := extent_strictMono.lt_iff_lt.1 (upper.trans_le extent_beyondInt64_succ)
    omega
  · rintro rfl
    rw [extent_beyondInt64, Int.floor_intCast]

/-- No other number is cut off to the least integer above the range. -/
theorem toward_eq_iff :
    toward number.signedExtent = 0x8000000000000000 ↔ number = beyondInt64 := by
  have natural : 0 ≤ ⌊extent number.magnitude⌋ := Int.floor_nonneg.2 (extent_nonneg _)
  rw [toward_signedExtent]
  constructor
  · intro whole
    split at whole
    next negative => omega
    next positive =>
      rw [← ofMagnitude_magnitude number, floor_extent_eq_iff.1 whole,
        Bool.eq_false_of_not_eq_true positive]
      rfl
  · rintro rfl
    exact floor_extent_eq_iff.2 rfl

theorem not_isInt64_beyondInt64 : ¬IsInt64 (toward beyondInt64.signedExtent) := by
  rw [toward_eq_iff.2 rfl]
  decide

/-- Any other number that passes the test is in the range. -/
theorem toInt64?_of_ne (apart : number ≠ beyondInt64) :
    number.toInt64? = if number.isFinite then int64Part? number.signedExtent else none := by
  have unreached := mt toward_eq_iff.1 apart
  unfold toInt64? int64Part?
  rw [truncatedInt_eq_toward]
  split
  next finite =>
    dsimp only
    by_cases inside : IsInt64 (toward number.signedExtent)
    · have most := inside.2
      rw [if_pos inside, if_pos ⟨inside.1, most.le⟩, min_eq_left (by omega)]
    · rw [if_neg inside, if_neg]
      unfold IsInt64 at inside
      omega
  next => rfl

/-- The conversion to 64-bit integers gives nothing but the truncated value, and nothing at all
beyond the range and for infinities and non-numbers, exactly when the number is not the one at
the upper bound of the test.  It never misses an integer in the range. -/
theorem toInt64?_exact_iff (number : Binary64) :
    ((∀ whole, number.toInt64? = some whole → whole = toward number.signedExtent) ∧
        (number.isFinite = false ∨ ¬IsInt64 (toward number.signedExtent) →
          number.toInt64? = none) ↔
      number ≠ beyondInt64) ∧
      (number.isFinite = true → IsInt64 (toward number.signedExtent) →
        number.toInt64? = some (toward number.signedExtent)) := by
  refine ⟨⟨?_, fun apart => ⟨fun whole found => ?_, fun outside => ?_⟩⟩, fun finite inside => ?_⟩
  · rintro ⟨-, none⟩ rfl
    exact absurd (none (.inr not_isInt64_beyondInt64)) (by decide)
  · rw [toInt64?_of_ne apart, Option.ite_none_right_eq_some] at found
    exact (int64Part?_eq_some_iff.1 found.2).1.symm
  · rw [toInt64?_of_ne apart, ite_eq_right_iff]
    intro finite
    exact int64Part?_eq_none_iff.2 (outside.resolve_left (by rw [finite]; decide))
  · have apart : number ≠ beyondInt64 := by
      rintro rfl
      exact not_isInt64_beyondInt64 inside
    rw [toInt64?_of_ne apart, if_pos finite]
    exact int64Part?_eq_some_iff.2 ⟨rfl, inside⟩

/-- The lower bound of the test is the least integer of the range. -/
theorem toInt64?_exact_least :
    beyondInt64.neg.toInt64? = some (-0x8000000000000000) := by
  have least : toward beyondInt64.neg.signedExtent = -0x8000000000000000 := by
    rw [signedExtent_neg, toward_neg, toward_eq_iff.2 rfl]
  have found := (toInt64?_exact_iff beyondInt64.neg).2 rfl (by rw [least]; decide)
  rwa [least] at found

/-- The number at the upper bound of the test is taken for the greatest integer of the range. -/
theorem toInt64?_saturated :
    beyondInt64.toInt64? = some 0x7fffffffffffffff ∧
      toward beyondInt64.signedExtent = 0x8000000000000000 ∧
      ¬IsInt64 (toward beyondInt64.signedExtent) :=
  ⟨rfl, toward_eq_iff.2 rfl, not_isInt64_beyondInt64⟩

end Binary64
end Reckoner
