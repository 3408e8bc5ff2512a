import Reckoner.Proofs.Number.Precision

/-!
# Relative errors

A number is near another one if it is the other one times a factor whose logarithm is small.
Errors of this kind add up along products, powers and quotients, and one rounding contributes an
error that is known from the number of digits that are kept.  Small errors bound the relative
difference, and the other way round.
-/

namespace Reckoner

open Decimal (pow_ten_pos)

/-- A number is another one times a factor whose logarithm is at most the error in size. -/
def Near (error exact approximate : ℝ) : Prop :=
  ∃ shift, |shift| ≤ error ∧ approximate = exact * Real.exp shift

namespace Near

variable {error other exact approximate : ℝ}

theorem refl (nonneg : 0 ≤ error) (exact : ℝ) : Near error exact exact :=
  ⟨0, by rwa [abs_zero], by rw [Real.exp_zero, mul_one]⟩

theorem mono (near : Near error exact approximate) (less : error ≤ other) :
    Near other exact approximate :=
  near.imp fun _ bounded => ⟨bounded.1.trans less, bounded.2⟩

/-- Errors add up along a chain of approximations. -/
theorem trans
    {last : ℝ}
    (first : Near error exact approximate)
    (second : Near other approximate last) :
    Near (error + other) exact last := by
  obtain ⟨shift, small, rfl⟩ := first
  obtain ⟨more, few, rfl⟩ := second
  exact ⟨shift + more, (abs_add_le _ _).trans (add_le_add small few), by rw [Real.exp_add]; ring⟩

/-- Nearness goes both ways, since it is about the ratio. -/
theorem symm (near : Near error exact approximate) : Near error approximate exact := by
  obtain ⟨shift, small, rfl⟩ := near
  refine ⟨-shift, by rwa [abs_neg], ?_⟩
  rw [mul_assoc, ← Real.exp_add, add_neg_cancel, Real.exp_zero, mul_one]

/-- The errors of factors add up in their product. -/
theorem mul
    {factor computed : ℝ}
    (first : Near error exact approximate)
    (second : Near other factor computed) :
    Near (error + other) (exact * factor) (approximate * computed) := by
  obtain ⟨shift, small, rfl⟩ := first
  obtain ⟨more, few, rfl⟩ := second
  exact ⟨shift + more, (abs_add_le _ _).trans (add_le_add small few), by rw [Real.exp_add]; ring⟩

theorem mul_left (near : Near error exact approximate) (factor : ℝ) :
    Near error (factor * exact) (factor * approximate) := by
  obtain ⟨shift, small, rfl⟩ := near
  exact ⟨shift, small, (mul_assoc _ _ _).symm⟩

theorem neg (near : Near error exact approximate) : Near error (-exact) (-approximate) := by
  obtain ⟨shift, small, rfl⟩ := near
  exact ⟨shift, small, (neg_mul _ _).symm⟩

theorem abs (near : Near error exact approximate) : Near error |exact| |approximate| := by
  obtain ⟨shift, small, rfl⟩ := near
  exact ⟨shift, small, by rw [abs_mul, Real.abs_exp]⟩

/-- Reciprocals are as near as the numbers themselves. -/
theorem inv (near : Near error exact approximate) : Near error exact⁻¹ approximate⁻¹ := by
  obtain ⟨shift, small, rfl⟩ := near
  exact ⟨-shift, by rwa [abs_neg], by rw [mul_inv, Real.exp_neg]⟩

/-- What is near a positive number is positive. -/
theorem pos (near : Near error exact approximate) (positive : 0 < exact) : 0 < approximate := by
  obtain ⟨shift, -, rfl⟩ := near
  exact mul_pos positive (Real.exp_pos shift)

theorem ne_zero (near : Near error exact approximate) (nonzero : exact ≠ 0) : approximate ≠ 0 := by
  obtain ⟨shift, -, rfl⟩ := near
  exact mul_ne_zero nonzero (Real.exp_ne_zero shift)

theorem nonneg (near : Near error exact approximate) (bounded : 0 ≤ exact) : 0 ≤ approximate := by
  obtain ⟨shift, -, rfl⟩ := near
  exact mul_nonneg bounded (Real.exp_pos shift).le

/-- What is near a number has its sign. -/
theorem sign_eq (near : Near error exact approximate) :
    SignType.sign approximate = SignType.sign exact := by
  obtain ⟨shift, -, rfl⟩ := near
  rw [sign_mul, sign_pos (Real.exp_pos shift), mul_one]

/-- The logarithms of numbers that are near are close. -/
theorem abs_log_sub_le (near : Near error exact approximate) (positive : 0 < exact) :
    |Real.log approximate - Real.log exact| ≤ error := by
  obtain ⟨shift, small, rfl⟩ := near
  rwa [Real.log_mul positive.ne' (Real.exp_ne_zero shift), Real.log_exp, add_sub_cancel_left]

/-- The exponentials of numbers that are close are near. -/
theorem exp {first second : ℝ} (close : |second - first| ≤ error) :
    Near error (Real.exp first) (Real.exp second) :=
  ⟨second - first, close, by rw [← Real.exp_add, add_sub_cancel]⟩

/-- For small shifts, the exponential leaves one hardly faster than the shift itself. -/
theorem abs_exp_sub_one_le {shift : ℝ} (small : |shift| ≤ 1 / 10) :
    |Real.exp shift - 1| ≤ 10 / 9 * |shift| := by
  have lower := Real.add_one_le_exp shift
  have opposite := Real.add_one_le_exp (-shift)
  have positive := Real.exp_pos shift
  rw [Real.exp_neg] at opposite
  have upper : (1 - shift) * Real.exp shift ≤ 1 := by
    have scaled := mul_le_mul_of_nonneg_right opposite positive.le
    rw [inv_mul_cancel₀ positive.ne'] at scaled
    linarith
  rcases abs_cases shift with ⟨size, sign⟩ | ⟨size, sign⟩
  · rw [size] at small ⊢
    rw [abs_of_nonneg (by linarith)]
    nlinarith
  · rw [size] at small ⊢
    have below : Real.exp shift ≤ 1 := Real.exp_le_one_iff.2 sign.le
    rw [abs_of_nonpos (by linarith)]
    linarith

/-- A small relative error as an absolute one. -/
theorem abs_sub_le (near : Near error exact approximate) (small : error ≤ 1 / 10) :
    |approximate - exact| ≤ 10 / 9 * error * |exact| := by
  obtain ⟨shift, bounded, rfl⟩ := near
  have factor : exact * Real.exp shift - exact = (Real.exp shift - 1) * exact := by ring
  rw [factor, abs_mul]
  refine mul_le_mul_of_nonneg_right ?_ (abs_nonneg exact)
  exact (abs_exp_sub_one_le (bounded.trans small)).trans
    (mul_le_mul_of_nonneg_left bounded (by norm_num))

/-- A number that is near one below a bound is hardly above the bound. -/
theorem le
    {bound : ℝ}
    (near : Near error exact approximate)
    (small : error ≤ 1 / 10)
    (bounded : exact ≤ bound)
    (nonneg : 0 ≤ bound) :
    approximate ≤ (1 + 10 / 9 * error) * bound := by
  obtain ⟨shift, size, rfl⟩ := near
  have factor := (abs_le.1 (abs_exp_sub_one_le (size.trans small))).2
  calc exact * Real.exp shift
    _ ≤ bound * Real.exp shift := mul_le_mul_of_nonneg_right bounded (Real.exp_pos shift).le
    _ ≤ bound * (1 + 10 / 9 * error) := mul_le_mul_of_nonneg_left (by linarith) nonneg
    _ = (1 + 10 / 9 * error) * bound := mul_comm _ _

/-- A number that is near one above a bound is hardly below the bound. -/
theorem ge
    {bound : ℝ}
    (near : Near error exact approximate)
    (small : error ≤ 1 / 10)
    (bounded : bound ≤ exact)
    (nonneg : 0 ≤ bound) :
    (1 - 10 / 9 * error) * bound ≤ approximate := by
  obtain ⟨shift, size, rfl⟩ := near
  have factor := (abs_le.1 (abs_exp_sub_one_le (size.trans small))).1
  calc (1 - 10 / 9 * error) * bound
    _ = bound * (1 - 10 / 9 * error) := mul_comm _ _
    _ ≤ bound * Real.exp shift := mul_le_mul_of_nonneg_left (by linarith) nonneg
    _ ≤ exact * Real.exp shift := mul_le_mul_of_nonneg_right bounded (Real.exp_pos shift).le

/-- For factors near one, the logarithm is hardly larger than the distance from one. -/
theorem abs_log_le {factor : ℝ} (small : |factor - 1| ≤ 1 / 10) :
    |Real.log factor| ≤ 10 / 9 * |factor - 1| := by
  obtain ⟨below, above⟩ := abs_le.1 small
  have positive : 0 < factor := by linarith
  have upper := Real.log_le_sub_one_of_pos positive
  have lower := Real.one_sub_inv_le_log_of_pos positive
  have difference : 1 - factor⁻¹ = (factor - 1) * factor⁻¹ := by
    rw [sub_mul, mul_inv_cancel₀ positive.ne', one_mul]
  have bounded : factor⁻¹ ≤ 10 / 9 := by
    rw [inv_le_comm₀ positive (by norm_num)]
    linarith
  have inverse : 0 ≤ factor⁻¹ := (inv_pos.2 positive).le
  rw [difference] at lower
  rcases abs_cases (factor - 1) with ⟨size, sign⟩ | ⟨size, sign⟩
  · rw [size, abs_of_nonneg (Real.log_nonneg (by linarith))]
    linarith
  · rw [size, abs_of_nonpos (Real.log_nonpos positive.le (by linarith))]
    nlinarith

/-- A number that differs little from another one is near it. -/
theorem of_abs_sub_le
    (nonneg : 0 ≤ error)
    (small : error ≤ 1 / 10)
    (close : |approximate - exact| ≤ error * |exact|) :
    Near (10 / 9 * error) exact approximate := by
  by_cases zero : exact = 0
  · rw [zero, abs_zero, mul_zero, sub_zero, abs_nonpos_iff] at close
    rw [zero, close]
    exact refl (by positivity) 0
  · have size : 0 < |exact| := abs_pos.2 zero
    have ratio : |approximate / exact - 1| ≤ error := by
      rw [div_sub_one zero, abs_div, div_le_iff₀ size]
      exact close
    have positive : 0 < approximate / exact := by
      linarith [(abs_le.1 (ratio.trans small)).1]
    refine ⟨Real.log (approximate / exact), ?_, ?_⟩
    · exact (abs_log_le (ratio.trans small)).trans
        (mul_le_mul_of_nonneg_left ratio (by norm_num))
    · rw [Real.exp_log positive, mul_div_cancel₀ _ zero]

end Near

/-! ## One rounding -/

/-- Rounding to an integer moves by at most a half. -/
theorem abs_roundAway_sub_le (number : ℚ) : |roundAway number - number| ≤ 1 / 2 := by
  have upward (size : ℚ) (nonneg : 0 ≤ size) : |roundAway size - size| ≤ 1 / 2 := by
    rw [roundAway_of_nonneg nonneg, abs_le]
    have lower := Int.floor_le (size + 1 / 2)
    have upper := Int.lt_floor_add_one (size + 1 / 2)
    constructor <;> linarith
  rcases le_total 0 number with nonneg | nonpos
  · exact upward number nonneg
  · have opposite := upward (-number) (neg_nonneg.2 nonpos)
    rwa [roundAway_neg, Int.cast_neg, neg_sub_neg, abs_sub_comm] at opposite

/-- Rounding changes a number by at most half a unit in the last place. -/
theorem abs_roundSignificant_sub_le (precision : Nat) (number : ℚ) :
    |roundSignificant precision number - number| ≤ 1 / 2 * 10 ^ lastPlace precision number := by
  have unit := pow_ten_pos (lastPlace precision number)
  have scaled : roundSignificant precision number - number =
      (roundAway (number / 10 ^ lastPlace precision number) -
        number / 10 ^ lastPlace precision number) * 10 ^ lastPlace precision number := by
    rw [sub_mul, div_mul_cancel₀ _ unit.ne']
    rfl
  rw [scaled, abs_mul, abs_of_pos unit]
  exact mul_le_mul_of_nonneg_right (abs_roundAway_sub_le _) unit.le

/-- Rounding changes a number below a power of ten by at most half a unit in the last place that
numbers of its size have. -/
theorem abs_roundSignificant_sub_le_of_lt
    {number : ℚ}
    {places : Int}
    (small : |number| < 10 ^ places)
    (precision : Nat) :
    |roundSignificant precision number - number| ≤ 1 / 2 * 10 ^ (places - precision) := by
  rcases eq_or_ne number 0 with rfl | nonzero
  · rw [roundSignificant_zero, sub_zero, abs_zero]
    exact mul_nonneg (by norm_num) (pow_ten_pos _).le
  · have log : Int.log 10 |number| < places :=
      (Int.lt_zpow_iff_log_lt (by decide) (abs_pos.2 nonzero)).1 (by exact_mod_cast small)
    refine (abs_roundSignificant_sub_le precision number).trans
      (mul_le_mul_of_nonneg_left ?_ (by norm_num))
    exact zpow_le_zpow_right₀ (by norm_num) (by rw [lastPlace]; omega)

/-- A unit in the last place is small against the number. -/
theorem pow_lastPlace_le (precision : Nat) {number : ℚ} (nonzero : number ≠ 0) :
    (10 : ℚ) ^ lastPlace precision number ≤ 10 ^ (1 - (precision : Int)) * |number| := by
  have size : 0 < |number| := abs_pos.2 nonzero
  have leading : (10 : ℚ) ^ Int.log 10 |number| ≤ |number| := by
    exact_mod_cast Int.zpow_log_le_self (by decide) size
  have places : lastPlace precision number = 1 - (precision : Int) + Int.log 10 |number| := by
    rw [lastPlace]
    ring
  rw [places, Decimal.pow_ten_add]
  exact mul_le_mul_of_nonneg_left leading (pow_ten_pos _).le

/-- The error of one rounding to a number of significant digits. -/
noncomputable def roundingError (precision : Nat) : ℝ :=
  3 / 5 * 10 ^ (1 - (precision : Int))

theorem roundingError_internalPrecision :
    roundingError Decimal.internalPrecision = 3 / 5 / 10 ^ 64 := by
  change 3 / 5 * (10 : ℝ) ^ (-64 : Int) = 3 / 5 / 10 ^ 64
  norm_num

theorem roundingError_powerPrecision :
    roundingError Decimal.powerPrecision = 3 / 5 / 10 ^ 79 := by
  change 3 / 5 * (10 : ℝ) ^ (-79 : Int) = 3 / 5 / 10 ^ 79
  norm_num

theorem roundingError_pos (precision : Nat) : 0 < roundingError precision := by
  unfold roundingError
  positivity

/-- The error of one more rounding. -/
theorem mul_roundingError_add (count precision : Nat) :
    count * roundingError precision + roundingError precision =
      (count + 1 : Nat) * roundingError precision := by
  rw [Nat.cast_succ, add_one_mul]

/-- Rounding to at least two digits is within the rounding error of the number. -/
theorem near_roundSignificant
    {precision : Nat}
    (atLeastTwo : 2 ≤ precision)
    (number : ℚ) :
    Near (roundingError precision) number (roundSignificant precision number : ℚ) := by
  by_cases zero : number = 0
  · rw [zero, roundSignificant_zero]
    exact .refl (roundingError_pos precision).le _
  · have unit : (10 : ℝ) ^ (1 - (precision : Int)) ≤ 10 ^ (-1 : Int) :=
      zpow_le_zpow_right₀ (by norm_num) (by omega)
    have change : |roundSignificant precision number - number| ≤
        1 / 2 * 10 ^ (1 - (precision : Int)) * |number| := by
      refine (abs_roundSignificant_sub_le precision number).trans ?_
      rw [mul_assoc]
      exact mul_le_mul_of_nonneg_left (pow_lastPlace_le precision zero) (by norm_num)
    have close : |((roundSignificant precision number : ℚ) : ℝ) - number| ≤
        1 / 2 * 10 ^ (1 - (precision : Int)) * |(number : ℝ)| := by
      have cast : ((|roundSignificant precision number - number| : ℚ) : ℝ) ≤
          (1 / 2 * 10 ^ (1 - (precision : Int)) * |number| : ℚ) := Rat.cast_le.2 change
      push_cast at cast
      exact cast
    have tiny : 1 / 2 * (10 : ℝ) ^ (1 - (precision : Int)) ≤ 1 / 10 := by
      norm_num at unit
      linarith
    refine (Near.of_abs_sub_le (by positivity) tiny close).mono ?_
    rw [roundingError, ← mul_assoc]
    exact mul_le_mul_of_nonneg_right (by norm_num) (by positivity)

theorem sign_ratCast (number : ℚ) : SignType.sign (number : ℝ) = SignType.sign number := by
  rcases lt_trichotomy number 0 with negative | rfl | positive
  · rw [sign_neg negative, sign_neg (Rat.cast_lt_zero.2 negative)]
  · rw [Rat.cast_zero, sign_zero, sign_zero]
  · rw [sign_pos positive, sign_pos (Rat.cast_pos.2 positive)]

/-- Rounding to at least two digits keeps the sign. -/
theorem sign_roundSignificant {precision : Nat} (atLeastTwo : 2 ≤ precision) (number : ℚ) :
    SignType.sign (roundSignificant precision number) = SignType.sign number := by
  have signs := (near_roundSignificant atLeastTwo number).sign_eq
  rwa [sign_ratCast, sign_ratCast] at signs

namespace Decimal

/-- A rounded decimal is within the rounding error of the decimal. -/
theorem near_rounded {precision : Nat} (atLeastTwo : 2 ≤ precision) (number : Decimal) :
    Near (roundingError precision) number.value (number.rounded precision).value := by
  rw [value_rounded]
  exact near_roundSignificant atLeastTwo _

theorem near_one : Near 0 1 (one.value : ℝ) := by
  rw [value_one, Rat.cast_one]
  exact .refl le_rfl 1

theorem near_ofInt_natCast (number : Nat) : Near 0 number ((ofInt number).value : ℝ) := by
  rw [value_ofInt, Int.cast_natCast, Rat.cast_natCast]
  exact .refl le_rfl _

end Decimal
end Reckoner
