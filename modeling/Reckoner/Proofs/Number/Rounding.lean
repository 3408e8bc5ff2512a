import Reckoner.Proofs.Number.Value

/-!
# Rounding decimals

A decimal is rounded to a number of significant digits.  Rounding is a matter of the value: how
many digits the unscaled integer has tells where the digits are cut, and it tells it in the same
place for all decimals of one value.  A quotient is rounded as if it had been worked out exactly,
since the integer quotient has digits to spare.  So the values of quotients and powers are known
from the values that they are made of.
-/

namespace Reckoner

/-! ## Rounding rational numbers -/

/-- The integer nearest to a rational number, a tie going away from zero. -/
def roundAway (number : ℚ) : Int :=
  if 0 ≤ number then ⌊number + 1 / 2⌋ else -⌊-number + 1 / 2⌋

/-- The place of the last of a number of significant digits. -/
def lastPlace (precision : Nat) (number : ℚ) : Int :=
  Int.log 10 |number| + 1 - precision

/-- A rational number rounded to a number of significant digits. -/
def roundSignificant (precision : Nat) (number : ℚ) : ℚ :=
  roundAway (number / 10 ^ lastPlace precision number) * 10 ^ lastPlace precision number

/-- From zero on, a half is added and the floor taken. -/
theorem roundAway_of_nonneg {number : ℚ} (nonneg : 0 ≤ number) :
    roundAway number = ⌊number + 1 / 2⌋ :=
  if_pos nonneg

@[simp] theorem roundAway_zero : roundAway 0 = 0 := by
  rw [roundAway_of_nonneg le_rfl]
  norm_num

@[simp] theorem roundAway_neg (number : ℚ) : roundAway (-number) = -roundAway number := by
  rcases lt_trichotomy number 0 with negative | rfl | positive
  · rw [roundAway, roundAway, if_pos (by linarith), if_neg negative.not_ge, neg_neg]
  · simp
  · rw [roundAway, roundAway, if_neg (by linarith), if_pos positive.le, neg_neg]

@[simp] theorem roundAway_intCast (number : Int) : roundAway number = number := by
  have half (other : Int) : ⌊(other : ℚ) + 1 / 2⌋ = other := by
    rw [Int.floor_intCast_add]
    norm_num
  unfold roundAway
  split
  · exact half number
  · rw [← Int.cast_neg, half, neg_neg]

/-- Rounding a quotient of natural numbers. -/
theorem roundAway_div (numerator : Nat) {denominator : Nat} (positive : 0 < denominator) :
    roundAway ((numerator : ℚ) / denominator) =
      ((if denominator ≤ 2 * (numerator % denominator) then numerator / denominator + 1
        else numerator / denominator : Nat) : Int) := by
  have parts : (numerator : ℚ) = denominator * (numerator / denominator : Nat) +
      (numerator % denominator : Nat) := by
    exact_mod_cast (Nat.div_add_mod numerator denominator).symm
  have below : ((numerator % denominator : Nat) : ℚ) < denominator := by
    exact_mod_cast Nat.mod_lt numerator positive
  have size : (0 : ℚ) < denominator := by exact_mod_cast positive
  rw [roundAway_of_nonneg (by positivity), Int.floor_eq_iff, ← sub_le_iff_le_add,
    ← lt_sub_iff_add_lt, le_div_iff₀ size, div_lt_iff₀ size, parts]
  generalize numerator / denominator = quotient
  generalize numerator % denominator = rest at below
  have rest_nonneg : (0 : ℚ) ≤ rest := Nat.cast_nonneg rest
  split
  next large =>
    have twice : (denominator : ℚ) ≤ 2 * rest := by exact_mod_cast large
    rw [Int.cast_natCast, Nat.cast_succ]
    constructor <;> nlinarith
  next small =>
    have twice : 2 * (rest : ℚ) < denominator := by exact_mod_cast Nat.lt_of_not_le small
    rw [Int.cast_natCast]
    constructor <;> nlinarith

/-- Rounding a quotient with a sign. -/
theorem roundAway_intDiv (numerator : Int) {denominator : Nat} (positive : 0 < denominator) :
    roundAway ((numerator : ℚ) / denominator) =
      numerator.sign * ((if denominator ≤ 2 * (numerator.natAbs % denominator) then
          numerator.natAbs / denominator + 1
        else numerator.natAbs / denominator : Nat) : Int) := by
  have size := roundAway_div numerator.natAbs positive
  rcases lt_trichotomy numerator 0 with negative | rfl | above
  · have opposite : (numerator : ℚ) = -(numerator.natAbs : ℚ) := by
      rw [Nat.cast_natAbs, abs_of_neg negative, Int.cast_neg, neg_neg]
    rw [← size, opposite, neg_div, roundAway_neg, Int.sign_eq_neg_one_of_neg negative, neg_one_mul]
  · simp
  · have same : (numerator : ℚ) = (numerator.natAbs : ℚ) := by
      rw [Nat.cast_natAbs, abs_of_pos above]
    rw [← size, same, Int.sign_eq_one_of_pos above, one_mul]

@[simp] theorem lastPlace_neg (precision : Nat) (number : ℚ) :
    lastPlace precision (-number) = lastPlace precision number := by
  rw [lastPlace, lastPlace, abs_neg]

@[simp] theorem roundSignificant_zero (precision : Nat) : roundSignificant precision 0 = 0 := by
  simp [roundSignificant]

/-- Rounding treats both signs alike. -/
@[simp] theorem roundSignificant_neg (precision : Nat) (number : ℚ) :
    roundSignificant precision (-number) = -roundSignificant precision number := by
  rw [roundSignificant, roundSignificant, lastPlace_neg, neg_div, roundAway_neg, Int.cast_neg,
    neg_mul]

open Decimal (pow_ten_pos pow_ten_add)

theorem log_mul_pow {number : ℚ} (positive : 0 < number) (shift : Int) :
    Int.log 10 (number * 10 ^ shift) = Int.log 10 number + shift := by
  have ten : 1 < 10 := by decide
  have scaled : 0 < number * 10 ^ shift := mul_pos positive (pow_ten_pos shift)
  have lower : (10 : ℚ) ^ Int.log 10 number ≤ number := by
    exact_mod_cast Int.zpow_log_le_self ten positive
  have upper : number < (10 : ℚ) ^ (Int.log 10 number + 1) := by
    exact_mod_cast Int.lt_zpow_succ_log_self ten number
  have above : Int.log 10 number + shift ≤ Int.log 10 (number * 10 ^ shift) := by
    refine (Int.zpow_le_iff_le_log ten scaled).1 ?_
    rw [Nat.cast_ofNat, pow_ten_add]
    exact mul_le_mul_of_nonneg_right lower (pow_ten_pos shift).le
  have below : Int.log 10 (number * 10 ^ shift) < Int.log 10 number + 1 + shift := by
    refine (Int.lt_zpow_iff_log_lt ten scaled).1 ?_
    rw [Nat.cast_ofNat, pow_ten_add]
    exact mul_lt_mul_of_pos_right upper (pow_ten_pos shift)
  omega

/-- A power of ten moves the last place. -/
theorem lastPlace_mul_pow
    (precision : Nat)
    {number : ℚ}
    (nonzero : number ≠ 0)
    (shift : Int) :
    lastPlace precision (number * 10 ^ shift) = lastPlace precision number + shift := by
  rw [lastPlace, lastPlace, abs_mul, abs_of_pos (pow_ten_pos shift),
    log_mul_pow (abs_pos.2 nonzero)]
  ring

/-- Where the point stands does not matter to significant digits. -/
theorem roundSignificant_mul_pow (precision : Nat) (number : ℚ) (shift : Int) :
    roundSignificant precision (number * 10 ^ shift) =
      roundSignificant precision number * 10 ^ shift := by
  by_cases zero : number = 0
  · rw [zero, zero_mul, roundSignificant_zero, zero_mul]
  · rw [roundSignificant, roundSignificant, lastPlace_mul_pow precision zero, pow_ten_add,
      mul_div_mul_right _ _ (pow_ten_pos shift).ne', mul_assoc]

/-- The last place of an integer is its number of digits less the precision. -/
theorem lastPlace_intCast (precision : Nat) (number : Int) :
    lastPlace precision number = (digitCount number.natAbs : Int) - precision := by
  rw [lastPlace, ← Int.cast_abs, ← Nat.cast_natAbs, Int.log_natCast, digitCount_eq_log,
    Nat.cast_succ]

/-- An integer that has no more digits is not changed. -/
theorem roundSignificant_intCast_of_le
    {precision : Nat}
    {number : Int}
    (few : digitCount number.natAbs ≤ precision) :
    roundSignificant precision number = number := by
  have place :
      -lastPlace precision number = ((precision - digitCount number.natAbs : Nat) : Int) := by
    rw [lastPlace_intCast]
    omega
  have whole : (number : ℚ) / 10 ^ lastPlace precision number =
      ((number * 10 ^ (precision - digitCount number.natAbs) : Int) : ℚ) := by
    rw [div_eq_mul_inv, ← zpow_neg, place, zpow_natCast]
    push_cast
    rfl
  rw [roundSignificant, whole, roundAway_intCast, ← whole,
    div_mul_cancel₀ _ (pow_ten_pos _).ne']

/-- Digits of an integer are cut off. -/
theorem roundSignificant_intCast_of_lt
    {precision : Nat}
    {number : Int}
    (many : precision < digitCount number.natAbs) :
    roundSignificant precision number =
      (number.sign * (if Nat.pow 10 (digitCount number.natAbs - precision) ≤
          2 * (number.natAbs % Nat.pow 10 (digitCount number.natAbs - precision)) then
        number.natAbs / Nat.pow 10 (digitCount number.natAbs - precision) + 1
      else number.natAbs / Nat.pow 10 (digitCount number.natAbs - precision) : Nat) : Int) *
        (10 : ℚ) ^ (digitCount number.natAbs - precision) := by
  have place : lastPlace precision number =
      ((digitCount number.natAbs - precision : Nat) : Int) := by
    rw [lastPlace_intCast]
    omega
  have positive : 0 < Nat.pow 10 (digitCount number.natAbs - precision) := Nat.pow_pos (by decide)
  have rounded := roundAway_intDiv number positive
  rw [Nat.pow_eq, Nat.cast_pow, Nat.cast_ofNat] at rounded
  rw [roundSignificant, place, zpow_natCast, rounded]
  rfl

/-! ## Digits to spare -/

/-- A number that is rounded at a digit in front of the point may be cut off at the point before. -/
theorem roundAway_div_pow_floor {number : ℚ} (nonneg : 0 ≤ number) (places : Nat) :
    roundAway ((⌊number⌋ : ℚ) / 10 ^ (places + 1)) = roundAway (number / 10 ^ (places + 1)) := by
  have half (other : ℚ) (positive : 0 ≤ other) :
      roundAway (other / 10 ^ (places + 1)) =
        ⌊other + (5 * 10 ^ places : Nat)⌋ / ((10 ^ (places + 1) : Nat) : Int) := by
    rw [roundAway_of_nonneg (by positivity), ← Int.floor_div_natCast]
    congr 1
    push_cast
    field_simp
    ring
  have floor_nonneg : (0 : ℚ) ≤ ⌊number⌋ := by exact_mod_cast Int.floor_nonneg.2 nonneg
  rw [half _ nonneg, half _ floor_nonneg, Int.floor_add_natCast, Int.floor_add_natCast,
    Int.floor_intCast]

/-- A number that has all its significant digits in front of the point may be cut off at the
point before it is rounded. -/
theorem roundSignificant_floor
    {precision : Nat}
    {number : ℚ}
    (large : 10 ^ precision ≤ number) :
    roundSignificant precision ⌊number⌋ = roundSignificant precision number := by
  have one : (1 : ℚ) ≤ number := (one_le_pow₀ (by norm_num)).trans large
  have floor_large : (10 ^ precision : Int) ≤ ⌊number⌋ := by
    rw [Int.le_floor]
    exact_mod_cast large
  have floor_one : (1 : ℚ) ≤ ⌊number⌋ := by
    exact_mod_cast (one_le_pow₀ (by norm_num : (1 : Int) ≤ 10)).trans floor_large
  have sameLog : Int.log 10 (⌊number⌋ : ℚ) = Int.log 10 number := by
    rw [Int.log_of_one_le_right 10 floor_one, Int.log_of_one_le_right 10 one, ← Int.floor_toNat,
      ← Int.floor_toNat, Int.floor_intCast]
  have samePlace : lastPlace precision (⌊number⌋ : ℚ) = lastPlace precision number := by
    rw [lastPlace, lastPlace, abs_of_nonneg (by linarith), abs_of_nonneg (by linarith), sameLog]
  obtain ⟨places, place⟩ : ∃ places : Nat, lastPlace precision number = (places + 1 : Nat) := by
    have long : (precision : Int) ≤ Int.log 10 number := by
      refine (Int.zpow_le_iff_le_log (by decide) (by linarith)).1 ?_
      exact_mod_cast large
    refine ⟨(Int.log 10 number - precision).toNat, ?_⟩
    rw [lastPlace, abs_of_nonneg (by linarith)]
    omega
  rw [roundSignificant, roundSignificant, samePlace, place, zpow_natCast,
    roundAway_div_pow_floor (by linarith)]

/-- Of a number with digits to spare, the fraction does not bear on the rounding. -/
theorem roundSignificant_toward
    {precision : Nat}
    {number : ℚ}
    (large : 10 ^ precision ≤ |number|) :
    roundSignificant precision (Decimal.toward number) = roundSignificant precision number := by
  unfold Decimal.toward
  split
  next nonneg =>
    rw [abs_of_nonneg nonneg] at large
    exact roundSignificant_floor large
  next negative =>
    rw [abs_of_neg (lt_of_not_ge negative)] at large
    rw [Int.cast_neg, roundSignificant_neg, roundSignificant_floor large, roundSignificant_neg,
      neg_neg]

/-- What is positive does not become zero. -/
theorem roundSignificant_pos
    {precision : Nat}
    {number : ℚ}
    (atLeastOne : 1 ≤ precision)
    (positive : 0 < number) :
    0 < roundSignificant precision number := by
  have place : lastPlace precision number ≤ Int.log 10 number := by
    rw [lastPlace, abs_of_pos positive]
    omega
  have unit : (10 : ℚ) ^ lastPlace precision number ≤ number := by
    exact_mod_cast (Int.zpow_le_iff_le_log (by decide) positive).2 place
  have large : 1 ≤ number / 10 ^ lastPlace precision number := by
    rwa [le_div_iff₀ (pow_ten_pos _), one_mul]
  have digit : 1 ≤ roundAway (number / 10 ^ lastPlace precision number) := by
    rw [roundAway_of_nonneg (by linarith), Int.le_floor]
    push_cast
    linarith
  exact mul_pos (by exact_mod_cast digit) (pow_ten_pos _)

/-- Only zero rounds to zero. -/
theorem roundSignificant_eq_zero_iff
    {precision : Nat}
    {number : ℚ}
    (atLeastOne : 1 ≤ precision) :
    roundSignificant precision number = 0 ↔ number = 0 := by
  constructor
  · intro zero
    rcases lt_trichotomy number 0 with negative | same | positive
    · have opposite := roundSignificant_pos atLeastOne (neg_pos.2 negative)
      rw [roundSignificant_neg, zero, neg_zero] at opposite
      exact absurd opposite (lt_irrefl 0)
    · exact same
    · exact absurd zero (roundSignificant_pos atLeastOne positive).ne'
  · rintro rfl
    exact roundSignificant_zero precision

namespace Decimal

/-- The value of a rounded decimal is the value, rounded. -/
theorem value_rounded (number : Decimal) (precision : Nat) :
    (number.rounded precision).value = roundSignificant precision number.value := by
  rw [number.value_eq, roundSignificant_mul_pow]
  unfold rounded
  dsimp only
  split
  next few => rw [roundSignificant_intCast_of_le few, value_eq]
  next many =>
    rw [roundSignificant_intCast_of_lt (Nat.lt_of_not_le many), value_mk, neg_sub, sub_eq_add_neg,
      pow_ten_add, zpow_natCast, ← mul_assoc]
    rfl

/-- Integer division goes toward zero. -/
theorem tdiv_eq_toward_int {numerator denominator : Int} (nonzero : denominator ≠ 0) :
    numerator.tdiv denominator = toward ((numerator : ℚ) / denominator) := by
  have positive : 0 < denominator.natAbs := Int.natAbs_pos.2 nonzero
  rcases Int.natAbs_eq denominator with same | opposite
  · rw [same, tdiv_eq_toward _ positive, Int.cast_natCast]
  · rw [opposite, Int.tdiv_neg, tdiv_eq_toward _ positive, Int.cast_neg, Int.cast_natCast, div_neg,
      toward_neg]

/-- The integer quotient has digits to spare. -/
theorem pow_le_abs_shifted
    {first second : Decimal}
    (dividend : first.unscaled ≠ 0)
    (divisor : second.unscaled ≠ 0)
    (precision : Nat) :
    (10 : ℚ) ^ precision ≤
      |((first.unscaled * Nat.pow 10 (precision + 3 + second.digits - first.digits) : Int) : ℚ) /
        second.unscaled| := by
  have lower := pow_digitCount_le (Int.natAbs_ne_zero.2 dividend)
  have upper := lt_pow_digitCount second.unscaled.natAbs
  have atLeastOne : 1 ≤ first.digits := by
    rw [digits, digitCount_eq_log]
    omega
  have bound : 10 ^ precision * second.unscaled.natAbs ≤
      first.unscaled.natAbs * 10 ^ (precision + 3 + second.digits - first.digits) := by
    calc 10 ^ precision * second.unscaled.natAbs
        ≤ 10 ^ precision * 10 ^ second.digits := Nat.mul_le_mul_left _ upper.le
      _ = 10 ^ (precision + second.digits) := (Nat.pow_add ..).symm
      _ ≤ 10 ^ (first.digits - 1 + (precision + 3 + second.digits - first.digits)) :=
          Nat.pow_le_pow_right (by decide) (by omega)
      _ = 10 ^ (first.digits - 1) * 10 ^ (precision + 3 + second.digits - first.digits) :=
          Nat.pow_add ..
      _ ≤ _ := Nat.mul_le_mul_right _ lower
  have size : (0 : ℚ) < |(second.unscaled : ℚ)| := abs_pos.2 (by exact_mod_cast divisor)
  have cast : (10 : ℚ) ^ precision * |(second.unscaled : ℚ)| ≤
      |(first.unscaled : ℚ)| * 10 ^ (precision + 3 + second.digits - first.digits) := by
    have scaled : ((10 ^ precision * second.unscaled.natAbs : Nat) : ℚ) ≤
        (first.unscaled.natAbs * 10 ^ (precision + 3 + second.digits - first.digits) : Nat) :=
      Nat.cast_le.2 bound
    simpa using scaled
  rw [abs_div, le_div_iff₀ size, Int.cast_mul, abs_mul, Nat.pow_eq]
  simpa using cast

/-- A quotient is the exact quotient, rounded. -/
theorem value_quotient
    {first second : Decimal}
    (nonzero : second.unscaled ≠ 0)
    (precision : Nat) :
    (first.quotient second precision).value =
      roundSignificant precision (first.value / second.value) := by
  unfold quotient
  dsimp only
  split
  next isZero => rw [value_eq_zero_iff.2 isZero, zero, value_ofInt, zero_div, roundSignificant_zero,
      Int.cast_zero]
  next isNonzero =>
    rw [value_dropZeros]
    refine (value_rounded _ precision).trans ?_
    rw [value_mk, roundSignificant_mul_pow, tdiv_eq_toward_int nonzero,
      roundSignificant_toward (pow_le_abs_shifted isNonzero nonzero precision),
      ← roundSignificant_mul_pow]
    congr 1
    generalize precision + 3 + second.digits - first.digits = shift
    have cancels : (10 : ℚ) ^ shift * 10 ^ (-(shift : Int)) = 1 := by
      rw [zpow_neg, zpow_natCast]
      exact mul_inv_cancel₀ (by positivity)
    rw [first.value_eq, second.value_eq, neg_add, neg_sub, sub_eq_add_neg, pow_ten_add,
      pow_ten_add, mul_div_mul_comm, ← zpow_sub₀ (by norm_num)]
    have scales : (10 : ℚ) ^ (-first.scale - -second.scale) =
        10 ^ second.scale * 10 ^ (-first.scale) := by
      rw [← pow_ten_add]
      congr 1
      ring
    rw [scales, Nat.pow_eq]
    push_cast
    linear_combination (first.unscaled : ℚ) / second.unscaled *
      (10 ^ second.scale * 10 ^ (-first.scale)) * cancels

/-! ## Powers -/

/-- An intermediate product of a power is the product, rounded. -/
theorem value_powerProduct (first second : Decimal) :
    (first.powerProduct second).value =
      roundSignificant powerPrecision (first.value * second.value) := by
  rw [powerProduct, value_rounded, value_product]

/-- Repeated squaring goes from values to values. -/
theorem value_powerLoop_congr
    {result other base partner : Decimal}
    (exponent : Nat)
    (sameResult : result.value = other.value)
    (sameBase : base.value = partner.value) :
    (powerLoop result base exponent).value = (powerLoop other partner exponent).value := by
  induction exponent using Nat.strongRecOn generalizing result other base partner with
  | ind exponent hypothesis =>
      have taken : (if exponent % 2 = 1 then result.powerProduct base else result).value =
          (if exponent % 2 = 1 then other.powerProduct partner else other).value := by
        split
        next => rw [value_powerProduct, value_powerProduct, sameResult, sameBase]
        next => exact sameResult
      rw [powerLoop.eq_1 result, powerLoop.eq_1 other]
      split
      next => exact taken
      next more =>
        refine hypothesis (exponent / 2) (by omega) taken ?_
        rw [value_powerProduct, value_powerProduct, sameBase]

end Decimal
end Reckoner
