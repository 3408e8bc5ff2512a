import Reckoner.Proofs.Number.Nearness

/-!
# Integer powers of decimals

A power is worked out by repeated squaring, and every product is rounded.  An error in a square
counts as often as the square is used, so that all errors together count as often as the exponent
says.  While the digits suffice nothing is rounded, and since the square after the last factor is
not taken, the digits suffice whenever they suffice for the power.
-/

namespace Reckoner
namespace Decimal

/-! ## Errors -/

theorem near_powerProduct
    {error other exact factor : ℝ}
    {first second : Decimal}
    (near : Near error exact first.value)
    (nearFactor : Near other factor second.value) :
    Near (error + other + roundingError powerPrecision) (exact * factor)
      (first.powerProduct second).value := by
  refine (near.mul nearFactor).trans ?_
  rw [value_powerProduct, ← Rat.cast_mul]
  exact near_roundSignificant (by decide) _

/-- The squares carry the error of the base once for each of its factors and an error of rounding
for each but the first; the product carries one more for each of its factors. -/
theorem near_powerLoop
    {error other exact factor : ℝ}
    {result base : Decimal}
    (exponent : Nat)
    (near : Near error exact result.value)
    (nearBase : Near other factor base.value) :
    Near (error + exponent * (other + roundingError powerPrecision)) (exact * factor ^ exponent)
      (powerLoop result base exponent).value := by
  induction exponent using Nat.strongRecOn generalizing error other exact factor result base with
  | ind exponent hypothesis =>
      generalize unit : roundingError powerPrecision = rounding at *
      have taken : Near (error + (exponent % 2 : Nat) * (other + rounding))
          (exact * factor ^ (exponent % 2))
          (if exponent % 2 = 1 then result.powerProduct base else result).value := by
        split
        next odd =>
          rw [odd, pow_one, Nat.cast_one, one_mul, ← add_assoc, ← unit]
          exact near_powerProduct near nearBase
        next even =>
          rw [Nat.mod_two_ne_one.1 even, pow_zero, mul_one, Nat.cast_zero, zero_mul, add_zero]
          exact near
      have parts : ((exponent % 2 : Nat) : ℝ) + 2 * (exponent / 2 : Nat) = exponent := by
        exact_mod_cast Nat.mod_add_div exponent 2
      rw [powerLoop]
      generalize (if exponent % 2 = 1 then result.powerProduct base else result) =
        product at taken ⊢
      split
      next last =>
        have whole : exponent % 2 = exponent := by omega
        rwa [whole] at taken
      next more =>
        have squared := near_powerProduct nearBase nearBase
        rw [unit] at squared
        have further := hypothesis (exponent / 2) (by omega) taken squared
        have power : exact * factor ^ (exponent % 2) * (factor * factor) ^ (exponent / 2) =
            exact * factor ^ exponent := by
          rw [← pow_two, ← pow_mul, mul_assoc, ← pow_add, Nat.mod_add_div]
        rw [power] at further
        convert further using 1
        rw [← parts]
        ring

/-- The power of a number is near that of a number that it is near. -/
theorem near_power (base : Decimal) (exponent : Nat) :
    Near (exponent * roundingError powerPrecision) ((base.value : ℝ) ^ exponent)
      (powerLoop one base exponent).value := by
  have power := near_powerLoop exponent near_one (.refl le_rfl base.value)
  rwa [zero_add, zero_add, one_mul] at power

theorem sign_power (base : Decimal) (exponent : Nat) :
    SignType.sign (powerLoop one base exponent).value = SignType.sign (base.value ^ exponent) := by
  have signs := (near_power base exponent).sign_eq
  rwa [← Rat.cast_pow, sign_ratCast, sign_ratCast] at signs

/-- The errors of so few factors add up to hardly more than their sum. -/
theorem abs_power_sub_le
    (base : Decimal)
    {exponent : Nat}
    (bounded : exponent < 2 ^ 31) :
    |(powerLoop one base exponent).value - base.value ^ exponent| ≤
      exponent * 10 ^ (-79 : Int) * |base.value ^ exponent| := by
  have count : (exponent : ℝ) ≤ 2 ^ 31 := by exact_mod_cast bounded.le
  have unit : roundingError powerPrecision = 3 / 5 * 10 ^ (-79 : Int) := rfl
  have near := near_power base exponent
  rw [unit] at near
  have close := near.abs_sub_le (by norm_num; linarith)
  have positive : (0 : ℝ) ≤ exponent * 10 ^ (-79 : Int) := by positivity
  refine (Rat.cast_le (K := ℝ)).1 ?_
  push_cast
  exact close.trans (mul_le_mul_of_nonneg_right (by linarith) (abs_nonneg _))

/-! ## Digits that suffice -/

theorem powerProduct_of_few
    {first second : Decimal}
    (few : (first.unscaled * second.unscaled).natAbs < 10 ^ powerPrecision) :
    first.powerProduct second =
      ⟨first.unscaled * second.unscaled, first.scale + second.scale⟩ :=
  rounded_of_le ((digitCount_le_iff (by decide)).2 few)

/-- No product on the way has more digits than the last one. -/
theorem value_powerLoop_of_few
    {result base : Decimal}
    (nonzero : base.unscaled ≠ 0)
    (started : result.unscaled ≠ 0)
    {exponent : Nat}
    (atLeastOne : 1 ≤ exponent)
    (few : (result.unscaled * base.unscaled ^ exponent).natAbs < 10 ^ powerPrecision) :
    (powerLoop result base exponent).value = result.value * base.value ^ exponent := by
  induction exponent using Nat.strongRecOn generalizing result base with
  | ind exponent hypothesis =>
      have power (count : Nat) (within : count ≤ exponent) :
          (result.unscaled * base.unscaled ^ count).natAbs < 10 ^ powerPrecision := by
        refine lt_of_le_of_lt ?_ few
        rw [Int.natAbs_mul, Int.natAbs_mul, Int.natAbs_pow, Int.natAbs_pow]
        exact Nat.mul_le_mul_left _ (Nat.pow_le_pow_right (Int.natAbs_pos.2 nonzero) within)
      have taken :
          (if exponent % 2 = 1 then result.powerProduct base else result).unscaled =
            result.unscaled * base.unscaled ^ (exponent % 2) ∧
          (if exponent % 2 = 1 then result.powerProduct base else result).value =
            result.value * base.value ^ (exponent % 2) := by
        split
        next odd =>
          have first := power 1 atLeastOne
          rw [pow_one] at first
          rw [powerProduct_of_few first, odd, pow_one, pow_one]
          exact ⟨rfl, value_product result base⟩
        next even =>
          rw [Nat.mod_two_ne_one.1 even, pow_zero, pow_zero, mul_one, mul_one]
          exact ⟨rfl, rfl⟩
      rw [powerLoop]
      generalize (if exponent % 2 = 1 then result.powerProduct base else result) =
        product at taken ⊢
      obtain ⟨unscaled, value⟩ := taken
      split
      next last =>
        have whole : exponent % 2 = exponent := by omega
        rw [value, whole]
      next more =>
        have square : (base.unscaled * base.unscaled).natAbs < 10 ^ powerPrecision := by
          refine lt_of_le_of_lt ?_ (power 2 (by omega))
          rw [← pow_two, Int.natAbs_mul]
          exact Nat.le_mul_of_pos_left _ (Int.natAbs_pos.2 started)
        have remaining : result.unscaled * base.unscaled ^ (exponent % 2) *
            (base.unscaled * base.unscaled) ^ (exponent / 2) =
              result.unscaled * base.unscaled ^ exponent := by
          rw [← pow_two, ← pow_mul, mul_assoc, ← pow_add, Nat.mod_add_div]
        rw [powerProduct_of_few square,
          hypothesis (exponent / 2) (by omega) (mul_ne_zero nonzero nonzero)
            (by rw [unscaled]; exact mul_ne_zero started (pow_ne_zero _ nonzero)) (by omega)
            (by rw [unscaled, remaining]; exact few),
          value, value_product, ← pow_two, ← pow_mul, mul_assoc, ← pow_add, Nat.mod_add_div]

end Decimal
end Reckoner
