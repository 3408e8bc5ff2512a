import Reckoner.Proofs.Number.Rounding

/-!
# Significant digits

The numbers that so many significant digits are enough for are the ones that rounding to so many
digits leaves alone, and rounding always leads to one of them.  It need not write it with so few
digits: when all digits that are kept are nines and the next one is at least five, the carry
makes one digit more, and the zeros behind it stay.
-/

namespace Reckoner

open Decimal (pow_ten_pos pow_ten_add)

/-! ## Counting the digits of a number -/

/-- An integer has at most so many digits when it is below that power of ten. -/
theorem digitCount_le_iff {number digits : Nat} (atLeastOne : 1 ≤ digits) :
    digitCount number ≤ digits ↔ number < 10 ^ digits := by
  constructor
  · intro few
    exact (lt_pow_digitCount number).trans_le (Nat.pow_le_pow_right (by decide) few)
  · intro below
    rw [digitCount_eq_log]
    exact Nat.log_lt_of_lt_pow' (by omega) below

theorem digitCount_eq
    {number digits : Nat}
    (lower : 10 ^ digits ≤ number)
    (upper : number < 10 ^ (digits + 1)) :
    digitCount number = digits + 1 := by
  rw [digitCount_eq_log, Nat.log_eq_of_pow_le_of_lt_pow lower upper]

/-! ## Numbers that few digits are enough for -/

/-- Whether a number can be written with so many significant digits. -/
def HasDigits (precision : Nat) (number : ℚ) : Prop :=
  ∃ written : Decimal, written.digits ≤ precision ∧ written.value = number

/-- A decimal with few digits is left alone. -/
theorem Decimal.rounded_of_le
    {number : Decimal}
    {precision : Nat}
    (few : number.digits ≤ precision) :
    number.rounded precision = number :=
  if_pos few

/-- Every digit that is dropped lowers the scale by one. -/
theorem Decimal.scale_rounded (number : Decimal) (precision : Nat) :
    (number.rounded precision).scale = number.scale - (number.digits - precision : Nat) := by
  unfold rounded
  dsimp only
  split
  next few => rw [Nat.sub_eq_zero_of_le few, Nat.cast_zero, sub_zero]
  next => rfl

/-- A number with few digits is left alone. -/
theorem HasDigits.roundSignificant_eq
    {precision : Nat}
    {number : ℚ}
    (few : HasDigits precision number) :
    roundSignificant precision number = number := by
  obtain ⟨written, digits, rfl⟩ := few
  rw [← Decimal.value_rounded, Decimal.rounded_of_le digits]

theorem hasDigits_mul_pow
    {precision : Nat}
    {unscaled : Int}
    (atLeastOne : 1 ≤ precision)
    (small : unscaled.natAbs ≤ 10 ^ precision)
    (exponent : Int) :
    HasDigits precision (unscaled * 10 ^ exponent) := by
  rcases Nat.lt_or_eq_of_le small with below | carried
  · refine ⟨⟨unscaled, -exponent⟩, (digitCount_le_iff atLeastOne).2 below, ?_⟩
    rw [Decimal.value_mk, neg_neg]
  · -- a power of ten needs a single digit, at the place that the carry reaches
    refine ⟨⟨unscaled.sign, -(precision + exponent)⟩, ?_, ?_⟩
    · have nonzero : unscaled ≠ 0 := by
        rintro rfl
        exact (Nat.pow_pos (by decide : 0 < 10)).ne carried
      refine (digitCount_le_iff atLeastOne).2 ?_
      rw [Int.natAbs_sign_of_ne_zero nonzero]
      exact Nat.one_lt_pow (by omega) (by decide)
    · have size : unscaled.sign * (10 ^ precision : Nat) = unscaled :=
        carried ▸ Int.sign_mul_natAbs unscaled
      rw [Decimal.value_mk, neg_neg, pow_ten_add, zpow_natCast, ← mul_assoc]
      congr 1
      exact_mod_cast size

theorem natAbs_roundAway_le
    {number : ℚ}
    {bound : Nat}
    (small : |number| ≤ bound) :
    (roundAway number).natAbs ≤ bound := by
  have upward (size : ℚ) (nonneg : 0 ≤ size) (few : size ≤ bound) :
      (roundAway size).natAbs ≤ bound := by
    rw [roundAway_of_nonneg nonneg]
    have lower : (0 : Int) ≤ ⌊size + 1 / 2⌋ := Int.floor_nonneg.2 (by linarith)
    have upper : ⌊size + 1 / 2⌋ < bound + 1 := by
      rw [Int.floor_lt]
      push_cast
      linarith
    omega
  rcases le_total 0 number with nonneg | nonpos
  · exact upward number nonneg (abs_of_nonneg nonneg ▸ small)
  · have opposite := upward (-number) (neg_nonneg.2 nonpos) (abs_of_nonpos nonpos ▸ small)
    rwa [roundAway_neg, Int.natAbs_neg] at opposite

/-- In units of the last place a number has as many digits as are kept. -/
theorem abs_div_lastPlace_lt (precision : Nat) (number : ℚ) :
    |number / 10 ^ lastPlace precision number| < 10 ^ precision := by
  rw [abs_div, abs_of_pos (pow_ten_pos _), div_lt_iff₀ (pow_ten_pos _), ← zpow_natCast,
    ← pow_ten_add, lastPlace]
  have above := Int.lt_zpow_succ_log_self (R := ℚ) (b := 10) (by decide) |number|
  rw [Nat.cast_ofNat] at above
  convert above using 2
  ring

/-- A rounded number has the digits it was rounded to. -/
theorem hasDigits_roundSignificant
    {precision : Nat}
    (atLeastOne : 1 ≤ precision)
    (number : ℚ) :
    HasDigits precision (roundSignificant precision number) := by
  refine hasDigits_mul_pow atLeastOne (natAbs_roundAway_le ?_) _
  exact_mod_cast (abs_div_lastPlace_lt precision number).le

/-- Rounding leaves alone exactly the numbers that the digits are enough for. -/
theorem roundSignificant_eq_self_iff
    {precision : Nat}
    (atLeastOne : 1 ≤ precision)
    {number : ℚ} :
    roundSignificant precision number = number ↔ HasDigits precision number := by
  constructor
  · intro same
    rw [← same]
    exact hasDigits_roundSignificant atLeastOne number
  · exact HasDigits.roundSignificant_eq

/-! ## The order of rounded numbers -/

theorem roundAway_le_roundAway {first second : ℚ} (nonneg : 0 ≤ first) (less : first ≤ second) :
    roundAway first ≤ roundAway second := by
  rw [roundAway_of_nonneg nonneg, roundAway_of_nonneg (nonneg.trans less)]
  exact Int.floor_mono (by linarith)

/-- Rounding does not go below zero. -/
theorem roundSignificant_nonneg (precision : Nat) {number : ℚ} (nonneg : 0 ≤ number) :
    0 ≤ roundSignificant precision number := by
  have unit := pow_ten_pos (lastPlace precision number)
  have digits := roundAway_le_roundAway le_rfl (div_nonneg nonneg unit.le)
  rw [roundAway_zero] at digits
  exact mul_nonneg (by exact_mod_cast digits) unit.le

/-- Rounding reaches the next power of ten at most. -/
theorem roundSignificant_le_pow (precision : Nat) (number : ℚ) :
    roundSignificant precision number ≤ 10 ^ (Int.log 10 |number| + 1) := by
  have few : (roundAway (number / 10 ^ lastPlace precision number)).natAbs ≤ 10 ^ precision :=
    natAbs_roundAway_le (by exact_mod_cast (abs_div_lastPlace_lt precision number).le)
  have digits : roundAway (number / 10 ^ lastPlace precision number) ≤ (10 ^ precision : Nat) := by
    omega
  have place : Int.log 10 |number| + 1 = precision + lastPlace precision number := by
    rw [lastPlace]
    ring
  rw [place, pow_ten_add, zpow_natCast]
  exact mul_le_mul_of_nonneg_right (by exact_mod_cast digits) (pow_ten_pos _).le

/-- Rounding does not fall below the power of ten that a number has reached. -/
theorem pow_le_roundSignificant
    {precision : Nat}
    (atLeastOne : 1 ≤ precision)
    {number : ℚ}
    (positive : 0 < number) :
    10 ^ Int.log 10 number ≤ roundSignificant precision number := by
  have reached : (10 : ℚ) ^ Int.log 10 number ≤ number := by
    exact_mod_cast Int.zpow_log_le_self (by decide) positive
  have place : Int.log 10 number = (precision - 1 : Nat) + lastPlace precision number := by
    rw [lastPlace, abs_of_pos positive]
    omega
  rw [place, pow_ten_add, ← le_div_iff₀ (pow_ten_pos _), zpow_natCast] at reached
  have digits : roundAway ((10 ^ (precision - 1) : Int) : ℚ) ≤
      roundAway (number / 10 ^ lastPlace precision number) :=
    roundAway_le_roundAway (by positivity) (by exact_mod_cast reached)
  rw [roundAway_intCast] at digits
  rw [place, pow_ten_add, zpow_natCast]
  exact mul_le_mul_of_nonneg_right (by exact_mod_cast digits) (pow_ten_pos _).le

/-- Rounding keeps the order of numbers, also where the digits of one of them reach further down. -/
theorem roundSignificant_mono {precision : Nat} (atLeastOne : 1 ≤ precision) :
    Monotone (roundSignificant precision) := by
  have upward {first second : ℚ} (nonneg : 0 ≤ first) (less : first ≤ second) :
      roundSignificant precision first ≤ roundSignificant precision second := by
    rcases nonneg.eq_or_lt with rfl | positive
    · rw [roundSignificant_zero]
      exact roundSignificant_nonneg precision less
    have further := positive.trans_le less
    rcases (Int.log_mono_right positive less : Int.log 10 first ≤ Int.log 10 second).eq_or_lt with
      same | below
    · have place : lastPlace precision first = lastPlace precision second := by
        rw [lastPlace, lastPlace, abs_of_pos positive, abs_of_pos further, same]
      have unit := pow_ten_pos (lastPlace precision second)
      rw [roundSignificant, roundSignificant, place]
      refine mul_le_mul_of_nonneg_right (Int.cast_le.2 ?_) unit.le
      exact roundAway_le_roundAway (div_nonneg nonneg unit.le)
        (div_le_div_of_nonneg_right less unit.le)
    · have least := roundSignificant_le_pow precision first
      rw [abs_of_pos positive] at least
      exact least.trans ((zpow_le_zpow_right₀ (by norm_num) below).trans
        (pow_le_roundSignificant atLeastOne further))
  intro first second less
  rcases le_total 0 first with nonneg | nonpos
  · exact upward nonneg less
  rcases le_total 0 second with above | below
  · have opposite := roundSignificant_nonneg precision (neg_nonneg.2 nonpos)
    rw [roundSignificant_neg] at opposite
    exact (neg_nonneg.1 opposite).trans (roundSignificant_nonneg precision above)
  · have opposite := upward (neg_nonneg.2 below) (neg_le_neg less)
    rw [roundSignificant_neg, roundSignificant_neg] at opposite
    exact neg_le_neg_iff.1 opposite

/-- Rounding does not go below a number with few digits. -/
theorem HasDigits.le_roundSignificant
    {precision : Nat}
    (atLeastOne : 1 ≤ precision)
    {bound number : ℚ}
    (few : HasDigits precision bound)
    (less : bound ≤ number) :
    bound ≤ roundSignificant precision number :=
  few.roundSignificant_eq ▸ roundSignificant_mono atLeastOne less

/-- Rounding does not go above a number with few digits. -/
theorem HasDigits.roundSignificant_le
    {precision : Nat}
    (atLeastOne : 1 ≤ precision)
    {bound number : ℚ}
    (few : HasDigits precision bound)
    (less : number ≤ bound) :
    roundSignificant precision number ≤ bound :=
  few.roundSignificant_eq ▸ roundSignificant_mono atLeastOne less

namespace Decimal

/-! ## Division -/

/-- Division fails exactly on zero.  Otherwise the exact quotient is rounded once, which changes it
exactly when it has no expansion with so few digits. -/
theorem div_rounds_once (first second : Decimal) :
    (first.div second = .error .divisionByZero ↔ second.value = 0) ∧
      (second.value ≠ 0 → ∃ quotient,
        first.div second = .ok quotient ∧
        quotient.value = roundSignificant internalPrecision (first.value / second.value) ∧
        (quotient.value = first.value / second.value ↔
          HasDigits internalPrecision (first.value / second.value))) := by
  unfold div
  split
  next zero => exact ⟨iff_of_true rfl (value_eq_zero_iff.2 zero), fun nonzero =>
      absurd (value_eq_zero_iff.2 zero) nonzero⟩
  next nonzero =>
    refine ⟨iff_of_false nofun (mt value_eq_zero_iff.1 nonzero), fun _ => ?_⟩
    refine ⟨first.quotient second internalPrecision, rfl, value_quotient nonzero _, ?_⟩
    rw [value_quotient nonzero]
    exact roundSignificant_eq_self_iff (by decide)

theorem div_rounds_once_exact :
    ∃ quotient, (⟨95, 1⟩ : Decimal).div ⟨-2, 0⟩ = .ok quotient ∧ quotient.value = -19 / 4 := by
  obtain ⟨quotient, divided, -, exact⟩ :=
    (div_rounds_once ⟨95, 1⟩ ⟨-2, 0⟩).2 (mt value_eq_zero_iff.1 (by decide))
  have few : HasDigits internalPrecision ((⟨95, 1⟩ : Decimal).value / (⟨-2, 0⟩ : Decimal).value) :=
    ⟨⟨-475, 2⟩, by decide +kernel, by norm_num [value_mk]⟩
  refine ⟨quotient, divided, (exact.2 few).trans ?_⟩
  norm_num [value_mk]

/-! ## Carries -/

/-- The first digits of the unscaled integer. -/
def leading (number : Decimal) (count : Nat) : Nat :=
  number.unscaled.natAbs / 10 ^ (number.digits - count)

/-- Whether rounding to so many digits carries beyond the first of them: they are all nines, and the
next digit is at least five. -/
def Carries (number : Decimal) (precision : Nat) : Prop :=
  precision < number.digits ∧ 10 ^ (precision + 1) ≤ number.leading (precision + 1) + 5

instance (number : Decimal) (precision : Nat) : Decidable (number.Carries precision) :=
  inferInstanceAs (Decidable (_ ∧ _))

theorem natAbs_ne_zero_of_lt_digits
    {number : Decimal}
    {precision : Nat}
    (atLeastOne : 1 ≤ precision)
    (many : precision < number.digits) :
    number.unscaled.natAbs ≠ 0 := by
  intro zero
  have small : number.digits ≤ precision :=
    (digitCount_le_iff atLeastOne).2 (zero ▸ Nat.pow_pos (by decide))
  omega

theorem leading_bounds
    {number : Decimal}
    {precision : Nat}
    (atLeastOne : 1 ≤ precision)
    (many : precision < number.digits) :
    10 ^ precision ≤ number.leading (precision + 1) ∧
      number.leading (precision + 1) < 10 ^ (precision + 1) := by
  have lower := pow_digitCount_le (natAbs_ne_zero_of_lt_digits atLeastOne many)
  have upper := lt_pow_digitCount number.unscaled.natAbs
  have positive : 0 < 10 ^ (number.digits - (precision + 1)) := Nat.pow_pos (by decide)
  have parts : precision + 1 + (number.digits - (precision + 1)) = number.digits := by omega
  have shorter : precision + (number.digits - (precision + 1)) = number.digits - 1 := by omega
  unfold leading
  constructor
  · rw [Nat.le_div_iff_mul_le positive, ← Nat.pow_add, shorter]
    exact lower
  · rw [Nat.div_lt_iff_lt_mul positive, ← Nat.pow_add, parts]
    exact upper

/-- Rounding looks at one digit more than it keeps. -/
theorem natAbs_unscaled_rounded
    {number : Decimal}
    {precision : Nat}
    (atLeastOne : 1 ≤ precision)
    (many : precision < number.digits) :
    (number.rounded precision).unscaled.natAbs = (number.leading (precision + 1) + 5) / 10 := by
  have nonzero : number.unscaled ≠ 0 :=
    Int.natAbs_ne_zero.1 (natAbs_ne_zero_of_lt_digits atLeastOne many)
  have split : number.digits - precision = number.digits - (precision + 1) + 1 := by omega
  unfold rounded leading
  dsimp only
  rw [if_neg many.not_ge, split, Int.natAbs_mul, Int.natAbs_sign_of_ne_zero nonzero, Nat.one_mul,
    Int.natAbs_natCast, Nat.pow_eq, Nat.pow_succ]
  generalize number.unscaled.natAbs = size
  have positive : 0 < 10 ^ (number.digits - (precision + 1)) := Nat.pow_pos (by decide)
  generalize 10 ^ (number.digits - (precision + 1)) = unit at positive
  -- in these units the size is the digits that are kept and the one behind them
  have quotient : size / (unit * 10) = size / unit / 10 := (Nat.div_div_eq_div_mul ..).symm
  have digit : unit * 10 ≤ 2 * (size % (unit * 10)) ↔ 5 ≤ size / unit % 10 := by
    rw [← Nat.mod_mul_right_div_self, Nat.le_div_iff_mul_le positive]
    omega
  simp only [quotient, digit]
  split <;> omega

/-- How many digits rounding leaves. -/
theorem digits_rounded
    {precision : Nat}
    (atLeastOne : 1 ≤ precision)
    (number : Decimal) :
    (number.rounded precision).digits =
      if number.Carries precision then precision + 1 else min number.digits precision := by
  rcases Nat.lt_or_ge precision number.digits with many | few
  · obtain ⟨lower, upper⟩ := leading_bounds atLeastOne many
    obtain ⟨others, rfl⟩ : ∃ others, precision = others + 1 := ⟨precision - 1, by omega⟩
    have size := natAbs_unscaled_rounded atLeastOne many
    rw [Nat.pow_succ] at lower upper
    rw [min_eq_right many.le]
    split
    next carries =>
      -- nothing but nines leaves room for a single number above, the power of ten
      have reached := carries.2
      rw [Nat.pow_succ] at reached
      have power : (number.rounded (others + 1)).unscaled.natAbs = 10 ^ (others + 1) := by omega
      rw [digits, power]
      exact digitCount_eq le_rfl (Nat.pow_lt_pow_right (by decide) (Nat.lt_succ_self _))
    next contained =>
      have below := Nat.lt_of_not_le fun reached => contained ⟨many, reached⟩
      rw [Nat.pow_succ] at below
      refine digitCount_eq ?_ ?_
      · omega
      · omega
  · rw [rounded_of_le few, if_neg fun carries => few.not_gt carries.1, min_eq_left few]

/-- The digits of a rounded decimal are too many exactly when it carries. -/
theorem digits_rounded_le_iff
    {precision : Nat}
    (atLeastOne : 1 ≤ precision)
    {number : Decimal} :
    (number.rounded precision).digits ≤ precision ↔ ¬number.Carries precision := by
  rw [digits_rounded atLeastOne]
  split
  next carries => exact iff_of_false (Nat.not_succ_le_self precision) (not_not_intro carries)
  next contained => exact iff_of_true (min_le_right _ _) contained

end Decimal
end Reckoner
