import Mathlib
import Reckoner.Number.Decimal

/-!
# The values of decimals

A decimal denotes a rational number, and many decimals denote the same one.  Sums, differences
and products denote the sums, differences and products of what their operands denote, and what is
asked of a decimal, its sign, its floor, its order among others, is a matter of what it denotes.
The number of digits in front of the point is one too, except for zero.
-/

namespace Reckoner

/-! ## Counting digits -/

theorem enoughDigits_eq_max
    (number : Nat)
    {digits : Nat}
    (atLeastOne : 0 < digits) :
    enoughDigits number digits (10 ^ digits) = max digits (Nat.log 10 number + 1) := by
  induction missing : number + 1 - digits using Nat.strongRecOn generalizing digits with
  | ind missing hypothesis =>
      have positive : 0 < 10 ^ digits := Nat.pow_pos (by decide)
      rw [enoughDigits]
      split
      next enough =>
        have below : number < 10 ^ digits := enough.resolve_right positive.ne'
        have few : Nat.log 10 number < digits := Nat.log_lt_of_lt_pow' atLeastOne.ne' below
        exact (max_eq_left few).symm
      next more =>
        have reached : 10 ^ digits ≤ number := Nat.le_of_not_lt fun below => more (.inl below)
        have many : digits ≤ Nat.log 10 number := Nat.le_log_of_pow_le (by decide) reached
        have shorter : digits < 10 ^ digits := Nat.lt_pow_self (by decide)
        rw [← Nat.pow_succ, hypothesis _ (by omega) (by omega) rfl]
        omega

/-- A bound on powers with one pair of exponents gives one for all that are not steeper. -/
theorem pow_le_pow_of_slope
    {base other rise run first second : Nat}
    (positive : 0 < base)
    (nonzero : run ≠ 0)
    (fraction : base ^ rise ≤ other ^ run)
    (notSteeper : run * first ≤ rise * second) :
    base ^ first ≤ other ^ second := by
  refine le_of_pow_le_pow_left₀ nonzero (Nat.zero_le _) ?_
  calc (base ^ first) ^ run
      = base ^ (run * first) := by rw [← Nat.pow_mul, Nat.mul_comm]
    _ ≤ base ^ (rise * second) := Nat.pow_le_pow_right positive notSteeper
    _ = (base ^ rise) ^ second := by rw [Nat.pow_mul]
    _ ≤ (other ^ run) ^ second := Nat.pow_le_pow_left fraction _
    _ = (other ^ second) ^ run := by rw [← Nat.pow_mul, Nat.mul_comm, Nat.pow_mul]

/-- The fraction lies below the decimal logarithm of two, so that the search starts low enough. -/
theorem digitsBelow_le_log (number : Nat) : digitsBelow number ≤ Nat.log 10 number := by
  rcases Nat.eq_zero_or_pos number with rfl | nonzero
  · decide
  · refine Nat.le_log_of_pow_le (by decide) (le_trans ?_ (Nat.log2_self_le nonzero.ne'))
    have fraction : 10 ^ 643 ≤ 2 ^ 2136 := by decide +kernel
    refine pow_le_pow_of_slope (by decide) (by decide) fraction ?_
    unfold digitsBelow
    omega

/-- The number of digits of an integer is its decimal logarithm and one. -/
theorem digitCount_eq_log (number : Nat) : digitCount number = Nat.log 10 number + 1 := by
  refine (enoughDigits_eq_max number (Nat.succ_pos _)).trans (max_eq_right ?_)
  exact Nat.succ_le_succ (digitsBelow_le_log number)

theorem pow_digitCount_le {number : Nat} (nonzero : number ≠ 0) :
    10 ^ (digitCount number - 1) ≤ number := by
  rw [digitCount_eq_log]
  exact Nat.pow_log_le_self 10 nonzero

theorem lt_pow_digitCount (number : Nat) : number < 10 ^ digitCount number := by
  rw [digitCount_eq_log]
  exact Nat.lt_pow_succ_log_self (by decide) number

/-! ## 64-bit integers -/

/-- Whether an integer is in the range of 64-bit integers. -/
def IsInt64 (number : Int) : Prop :=
  -0x8000000000000000 ≤ number ∧ number < 0x8000000000000000

instance (number : Int) : Decidable (IsInt64 number) :=
  inferInstanceAs (Decidable (_ ∧ _))

namespace Decimal

/-- Whatever is held is in range. -/
theorem isInt64_held (number : Int) : IsInt64 (held number) := by
  unfold IsInt64 held
  omega

/-- Exactly the integers in range are held as they are. -/
theorem held_eq_self_iff {number : Int} : held number = number ↔ IsInt64 number := by
  unfold IsInt64 held
  omega

/-! ## Values -/

/-- The number that a decimal denotes. -/
def value (number : Decimal) : ℚ :=
  number.unscaled * 10 ^ (-number.scale)

theorem value_eq (number : Decimal) :
    number.value = number.unscaled * 10 ^ (-number.scale) := rfl

theorem value_mk (unscaled scale : Int) :
    (⟨unscaled, scale⟩ : Decimal).value = unscaled * 10 ^ (-scale) := rfl

theorem pow_ten_pos (exponent : Int) : (0 : ℚ) < 10 ^ exponent :=
  zpow_pos (by norm_num) exponent

theorem pow_ten_add (first second : Int) : (10 : ℚ) ^ (first + second) = 10 ^ first * 10 ^ second :=
  zpow_add₀ (by norm_num) first second

/-- A decimal is zero when its unscaled integer is. -/
theorem value_eq_zero_iff {number : Decimal} : number.value = 0 ↔ number.unscaled = 0 := by
  rw [value, mul_eq_zero_iff_right (pow_ten_pos _).ne', Int.cast_eq_zero]

/-- A decimal is positive when its unscaled integer is. -/
theorem value_pos_iff {number : Decimal} : 0 < number.value ↔ 0 < number.unscaled := by
  rw [value, mul_pos_iff_of_pos_right (pow_ten_pos _), Int.cast_pos]

/-- The size of a decimal is that of its unscaled integer at its scale. -/
theorem abs_value (number : Decimal) :
    |number.value| = (number.unscaled.natAbs : ℚ) * 10 ^ (-number.scale) := by
  rw [value, abs_mul, abs_of_pos (pow_ten_pos _), ← Int.cast_abs, Int.abs_eq_natAbs]
  rfl

@[simp] theorem value_ofInt (number : Int) : (ofInt number).value = number := by
  simp [ofInt, value_mk]

theorem value_zero : zero.value = 0 := by
  rw [zero, value_ofInt, Int.cast_zero]

theorem value_one : one.value = 1 := by
  rw [one, value_ofInt, Int.cast_one]

/-- Digits that are put behind the unscaled integer change nothing. -/
theorem value_shift (unscaled scale : Int) (places : Nat) :
    (⟨unscaled * Nat.pow 10 places, scale + places⟩ : Decimal).value = value ⟨unscaled, scale⟩ := by
  have cancels : (10 : ℚ) ^ places * 10 ^ (-(places : Int)) = 1 := by
    rw [zpow_neg, zpow_natCast]
    exact mul_inv_cancel₀ (by positivity)
  rw [value_mk, value_mk, neg_add, pow_ten_add]
  push_cast [Nat.pow_eq]
  linear_combination (unscaled : ℚ) * 10 ^ (-scale) * cancels

theorem unscaledAt_eq (number : Decimal) (scale : Int) :
    number.unscaledAt scale = number.unscaled * Nat.pow 10 (scale - number.scale).toNat := by
  unfold unscaledAt
  split
  next zero => simp [zero]
  next => rfl

/-- A decimal that is written at a larger scale keeps its value. -/
theorem value_atScale
    {number : Decimal}
    {scale : Int}
    (above : number.scale ≤ scale) :
    (number.atScale scale).value = number.value := by
  obtain ⟨places, rfl⟩ := Int.le.dest above
  rw [atScale, unscaledAt_eq, add_sub_cancel_left, Int.toNat_natCast]
  exact value_shift number.unscaled number.scale places

/-- A zero summand may change the form, not the value. -/
theorem value_addZero (number : Decimal) (zeroScale : Int) :
    (number.addZero zeroScale).value = number.value := by
  refine value_atScale ?_
  unfold zeroSummandDigits
  omega

/-- The value at a scale common to two decimals. -/
theorem value_eq_unscaledAt
    {number : Decimal}
    {scale : Int}
    (above : number.scale ≤ scale) :
    number.value = number.unscaledAt scale * 10 ^ (-scale) :=
  (value_atScale above).symm

/-- Sums are exact. -/
@[simp] theorem value_add (first second : Decimal) :
    (first.add second).value = first.value + second.value := by
  unfold add
  split
  next zero => rw [value_addZero, value_eq_zero_iff.2 zero, add_zero]
  next =>
    split
    next zero => rw [value_addZero, value_eq_zero_iff.2 zero, zero_add]
    next =>
      rw [value_eq_unscaledAt (le_max_left first.scale second.scale),
        value_eq_unscaledAt (le_max_right first.scale second.scale), value_mk, Int.cast_add,
        add_mul]

/-- Differences are exact. -/
@[simp] theorem value_sub (first second : Decimal) :
    (first.sub second).value = first.value - second.value := by
  rw [sub, value_eq_unscaledAt (le_max_left first.scale second.scale),
    value_eq_unscaledAt (le_max_right first.scale second.scale), value_mk, Int.cast_sub, sub_mul]

@[simp] theorem value_neg (number : Decimal) : number.neg.value = -number.value := by
  rw [neg, value_mk, value, Int.cast_neg, neg_mul]

theorem value_product (first second : Decimal) :
    (⟨first.unscaled * second.unscaled, first.scale + second.scale⟩ : Decimal).value =
      first.value * second.value := by
  rw [value_mk, neg_add, pow_ten_add, value, value, Int.cast_mul]
  ring

/-- Dropping trailing zeros keeps the value. -/
theorem value_dropZeros (limit : Nat) (unscaled scale : Int) :
    value ⟨(dropZeros limit unscaled scale).1, (dropZeros limit unscaled scale).2⟩ =
      value ⟨unscaled, scale⟩ := by
  induction limit generalizing unscaled scale with
  | zero => rfl
  | succ limit hypothesis =>
      unfold dropZeros
      split
      next divides =>
        have split : unscaled / 10 * Nat.pow 10 1 = unscaled := by
          simp only [Nat.pow_eq]
          omega
        have shifted := value_shift (unscaled / 10) (scale - 1) 1
        rw [split, Nat.cast_one, sub_add_cancel] at shifted
        exact (hypothesis _ _).trans shifted.symm
      next => rfl

/-- The form without trailing zeros has the same value. -/
theorem value_normalized (number : Decimal) : number.normalized.value = number.value := by
  unfold normalized
  split
  next isZero => rw [value_eq_zero_iff.2 isZero, zero, value_ofInt, Int.cast_zero]
  next => exact value_dropZeros _ _ _

/-- What counts as a short one is one. -/
theorem value_of_isShortOne {number : Decimal} (one : number.isShortOne = true) :
    number.value = 1 := by
  unfold isShortOne at one
  simp only [Bool.and_eq_true, decide_eq_true_eq, beq_iff_eq] at one
  obtain ⟨⟨natural, -⟩, same⟩ := one
  have places : ((number.scale.toNat : Nat) : Int) = number.scale := Int.toNat_of_nonneg natural
  rw [value, same, ← places, zpow_neg, zpow_natCast]
  push_cast [Nat.pow_eq]
  rw [Int.toNat_natCast]
  exact mul_inv_cancel₀ (by positivity)

/-- Products are exact. -/
@[simp] theorem value_mul (first second : Decimal) :
    (first.mul second).value = first.value * second.value := by
  unfold mul
  split
  next one => rw [value_normalized, value_of_isShortOne one, one_mul]
  next =>
    split
    next one => rw [value_normalized, value_of_isShortOne one, mul_one]
    next => exact value_product first second

/-! ## What is asked of a decimal -/

/-- The sign of a decimal is that of its value. -/
theorem signum_eq_sign (number : Decimal) : number.signum = (SignType.sign number.value : Int) := by
  rw [signum, Int.sign_eq_sign]
  rcases lt_trichotomy number.unscaled 0 with negative | zero | positive
  · have below : number.value < 0 := by
      rw [value]
      exact mul_neg_of_neg_of_pos (Int.cast_lt_zero.2 negative) (pow_ten_pos _)
    rw [sign_neg negative, sign_neg below]
  · rw [zero, value_eq_zero_iff.2 zero, sign_zero, sign_zero]
  · rw [sign_pos positive, sign_pos (value_pos_iff.2 positive)]

/-- The number of digits in front of the point, less the number of zeros that follow the point, is a
matter of the value. -/
theorem digits_sub_scale {number : Decimal} (nonzero : number.value ≠ 0) :
    (number.digits : Int) - number.scale = Int.log 10 |number.value| + 1 := by
  have size : number.unscaled.natAbs ≠ 0 := by
    rw [Int.natAbs_ne_zero]
    exact fun zero => nonzero (value_eq_zero_iff.2 zero)
  have atLeastOne : 1 ≤ number.digits := by
    rw [digits, digitCount_eq_log]
    omega
  have positive : 0 < |number.value| := abs_pos.2 nonzero
  have lower : (10 : ℚ) ^ ((number.digits : Int) - number.scale - 1) ≤ |number.value| := by
    have bound : (10 : ℚ) ^ (number.digits - 1) ≤ number.unscaled.natAbs := by
      exact_mod_cast pow_digitCount_le size
    rw [abs_value, show (number.digits : Int) - number.scale - 1 =
      ((number.digits - 1 : Nat) : Int) + -number.scale by omega, pow_ten_add, zpow_natCast]
    exact mul_le_mul_of_nonneg_right bound (pow_ten_pos _).le
  have upper : |number.value| < (10 : ℚ) ^ ((number.digits : Int) - number.scale) := by
    have bound : (number.unscaled.natAbs : ℚ) < 10 ^ number.digits := by
      exact_mod_cast lt_pow_digitCount number.unscaled.natAbs
    rw [abs_value, sub_eq_add_neg, pow_ten_add, zpow_natCast]
    exact mul_lt_mul_of_pos_right bound (pow_ten_pos _)
  have above := (Int.zpow_le_iff_le_log (b := 10) (by decide) positive).1 (by exact_mod_cast lower)
  have below := (Int.lt_zpow_iff_log_lt (b := 10) (by decide) positive).1 (by exact_mod_cast upper)
  omega

/-- Apart from zeros, sizes compare as the values do. -/
theorem compareSizes_eq_compare
    {first second : Decimal}
    (nonzero : first.value ≠ 0)
    (other : second.value ≠ 0) :
    first.compareSizes second = compare |first.value| |second.value| := by
  have atScale : compare (first.unscaledAt (max first.scale second.scale)).natAbs
      (second.unscaledAt (max first.scale second.scale)).natAbs =
        compare |first.value| |second.value| := by
    have scaled (number : Decimal) (above : number.scale ≤ max first.scale second.scale) :
        |number.value| = ((number.unscaledAt (max first.scale second.scale)).natAbs : ℚ) *
          10 ^ (-max first.scale second.scale) := by
      rw [← value_atScale above]
      exact abs_value _
    have monotone : StrictMono fun size : Nat =>
        (size : ℚ) * 10 ^ (-max first.scale second.scale) :=
      (strictMono_mul_right_of_pos (pow_ten_pos _)).comp Nat.strictMono_cast
    rw [scaled first (le_max_left _ _), scaled second (le_max_right _ _), ← cmp_eq_compare,
      ← cmp_eq_compare]
    exact (monotone.cmp_map_eq _ _).symm
  have order {left right : Decimal} (positive : right.value ≠ 0)
      (shorter : Int.log 10 |left.value| < Int.log 10 |right.value|) :
      |left.value| < |right.value| := by
    by_contra notLess
    exact absurd (Int.log_mono_right (abs_pos.2 positive) (le_of_not_gt notLess)) shorter.not_ge
  unfold compareSizes
  simp only [digits_sub_scale nonzero, digits_sub_scale other, atScale]
  split
  next => rfl
  next different =>
    rcases lt_trichotomy (Int.log 10 |first.value|) (Int.log 10 |second.value|) with
      shorter | same | longer
    · rw [compare_lt_iff_lt.2 (order other shorter), compare_lt_iff_lt.2 (by omega)]
    · exact absurd (compare_eq_iff_eq.2 (by omega)) different
    · rw [compare_gt_iff_gt.2 (order nonzero longer), compare_gt_iff_gt.2 (by omega)]

/-- Decimals are compared by their values. -/
theorem order_eq_compare (first second : Decimal) :
    first.order second = compare first.value second.value := by
  have signs : ∀ left right : SignType, (left : Int) < right ↔ left < right := by decide
  have injective : ∀ left right : SignType, (left : Int) = right → left = right := by decide
  have reflects {left right : ℚ} (less : (SignType.sign left : Int) < SignType.sign right) :
      left < right :=
    SignType.sign.monotone.reflect_lt ((signs _ _).1 less)
  unfold order
  simp only [signum_eq_sign]
  rcases lt_trichotomy (SignType.sign first.value : Int) (SignType.sign second.value) with
    less | same | greater
  · rw [compare_lt_iff_lt.2 less, compare_lt_iff_lt.2 (reflects less)]
    rfl
  · rw [compare_eq_iff_eq.2 same, if_pos rfl]
    have sameSign := injective _ _ same
    rcases lt_trichotomy first.value 0 with negative | zero | positive
    · have otherNegative := sign_eq_neg_one_iff.1 (sameSign.symm.trans (sign_neg negative))
      have unscaled : ¬0 < first.unscaled := fun positive =>
        absurd (value_pos_iff.2 positive) negative.not_gt
      rw [if_neg (mt value_eq_zero_iff.2 negative.ne), if_neg unscaled,
        compareSizes_eq_compare otherNegative.ne negative.ne, abs_of_neg negative,
        abs_of_neg otherNegative, ← cmp_eq_compare, ← cmp_eq_compare]
      have decreasing : StrictAnti (Neg.neg : ℚ → ℚ) := fun _ _ => neg_lt_neg
      exact decreasing.cmp_map_eq second.value first.value
    · have otherZero := sign_eq_zero_iff.1 (sameSign.symm.trans (zero ▸ sign_zero))
      rw [if_pos (value_eq_zero_iff.1 zero), zero, otherZero]
      rfl
    · have otherPositive := sign_eq_one_iff.1 (sameSign.symm.trans (sign_pos positive))
      rw [if_neg (mt value_eq_zero_iff.2 positive.ne'), if_pos (value_pos_iff.1 positive),
        compareSizes_eq_compare positive.ne' otherPositive.ne', abs_of_pos positive,
        abs_of_pos otherPositive]
  · rw [compare_gt_iff_gt.2 greater, compare_gt_iff_gt.2 (reflects greater)]
    rfl

/-- A decimal without digits behind the point. -/
theorem value_of_scale_nonpos {number : Decimal} (whole : number.scale ≤ 0) :
    number.value = ((number.unscaled * Nat.pow 10 (-number.scale).toNat : Int) : ℚ) := by
  have places : (((-number.scale).toNat : Nat) : Int) = -number.scale := by omega
  rw [value, ← places, zpow_natCast, Int.toNat_natCast]
  push_cast [Nat.pow_eq]
  rfl

/-- A decimal with digits behind the point. -/
theorem value_of_scale_pos {number : Decimal} (fraction : ¬number.scale ≤ 0) :
    number.value = (number.unscaled : ℚ) / (Nat.pow 10 number.scale.toNat : Nat) := by
  have places : ((number.scale.toNat : Nat) : Int) = number.scale := by omega
  rw [value, ← places, zpow_neg, zpow_natCast, Int.toNat_natCast, div_eq_mul_inv]
  push_cast [Nat.pow_eq]
  rfl

/-- The floor is the largest integer that is not above the value. -/
@[simp] theorem value_floor (number : Decimal) : number.floor.value = ⌊number.value⌋ := by
  unfold floor
  split
  next whole =>
    rw [value_of_scale_nonpos whole, Int.floor_intCast]
  next fraction =>
    rw [value_ofInt, value_of_scale_pos fraction, Rat.floor_intCast_div_natCast,
      Int.fdiv_eq_ediv_of_nonneg _ (Int.natCast_nonneg _)]

/-- The ceiling is the least integer that is not below the value. -/
@[simp] theorem value_ceiling (number : Decimal) : number.ceiling.value = ⌈number.value⌉ := by
  unfold ceiling
  split
  next whole =>
    rw [value_of_scale_nonpos whole, Int.ceil_intCast]
  next fraction =>
    rw [value_ofInt, value_of_scale_pos fraction,
      ← neg_neg ((number.unscaled : ℚ) / _), Int.ceil_neg,
      ← neg_div, ← Int.cast_neg, Rat.floor_intCast_div_natCast,
      Int.fdiv_eq_ediv_of_nonneg _ (Int.natCast_nonneg _)]

/-- The fractional part is the value less its floor. -/
@[simp] theorem value_fractionalPart (number : Decimal) :
    number.fractionalPart.value = Int.fract number.value := by
  rw [fractionalPart, value_sub, value_floor, Int.fract]

/-- A decimal is an integer when its fractional part is zero. -/
theorem isIntegral_iff {number : Decimal} :
    number.isIntegral = true ↔ Int.fract number.value = 0 := by
  unfold isIntegral
  rw [Bool.or_eq_true, decide_eq_true_eq, beq_iff_eq]
  by_cases whole : number.scale ≤ 0
  · rw [value_of_scale_nonpos whole, Int.fract_intCast]
    simp [whole]
  · have positive : ((Nat.pow 10 number.scale.toNat : Nat) : ℚ) ≠ 0 := by
      exact_mod_cast (Nat.pow_pos (by decide)).ne'
    rw [value_of_scale_pos whole, Int.fract_div_intCast_eq_div_intCast_mod,
      div_eq_zero_iff, or_iff_left positive, Int.cast_eq_zero]
    exact or_iff_right whole

/-- The integer next to a rational number toward zero. -/
def toward (number : ℚ) : Int :=
  if 0 ≤ number then ⌊number⌋ else -⌊-number⌋

@[simp] theorem toward_neg (number : ℚ) : toward (-number) = -toward number := by
  rcases lt_trichotomy number 0 with negative | rfl | positive
  · rw [toward, toward, if_pos (by linarith), if_neg negative.not_ge, neg_neg]
  · simp [toward]
  · rw [toward, toward, if_neg (by linarith), if_pos positive.le, neg_neg]

@[simp] theorem toward_intCast (number : Int) : toward number = number := by
  rw [toward, ← Int.cast_neg, Int.floor_intCast, Int.floor_intCast, neg_neg, ite_self]

/-- Division of integers toward zero. -/
theorem tdiv_eq_toward (numerator : Int) {denominator : Nat} (positive : 0 < denominator) :
    numerator.tdiv denominator = toward ((numerator : ℚ) / denominator) := by
  have size : (0 : ℚ) < denominator := by exact_mod_cast positive
  have nonneg_iff : 0 ≤ (numerator : ℚ) / denominator ↔ 0 ≤ numerator := by
    rw [le_div_iff₀ size, zero_mul, Int.cast_nonneg_iff]
  unfold toward
  split
  next nonneg =>
    rw [Rat.floor_intCast_div_natCast, Int.tdiv_eq_ediv_of_nonneg (nonneg_iff.1 nonneg)]
  next negative =>
    have opposite : 0 ≤ -numerator := by
      have := mt nonneg_iff.2 negative
      omega
    rw [← neg_div, ← Int.cast_neg, Rat.floor_intCast_div_natCast,
      ← Int.tdiv_eq_ediv_of_nonneg opposite, Int.neg_tdiv, neg_neg]

/-- Truncation goes toward zero. -/
theorem truncated_eq_toward (number : Decimal) : number.truncated = toward number.value := by
  unfold truncated
  split
  next whole => rw [value_of_scale_nonpos whole, toward_intCast]
  next fraction =>
    rw [value_of_scale_pos fraction]
    exact tdiv_eq_toward number.unscaled (Nat.pow_pos (by decide))

/-- The size of what is left is the floor of the size. -/
theorem natAbs_toward (number : ℚ) : ((toward number).natAbs : Int) = ⌊|number|⌋ := by
  rcases le_total 0 number with nonneg | nonpos
  · rw [toward, if_pos nonneg, abs_of_nonneg nonneg]
    exact Int.natAbs_of_nonneg (Int.floor_nonneg.2 nonneg)
  · have opposite : 0 ≤ -number := neg_nonneg.2 nonpos
    rw [← Int.natAbs_neg, ← toward_neg, toward, if_pos opposite, abs_of_nonpos nonpos]
    exact Int.natAbs_of_nonneg (Int.floor_nonneg.2 opposite)

/-- The integer next to a rational number toward zero, if it is in the range of 64-bit integers. -/
def int64Part? (number : ℚ) : Option Int :=
  if IsInt64 (toward number) then some (toward number) else none

/-- The part with 64 bits is the one toward zero, when it is in range. -/
theorem int64Part?_eq_some_iff {number : ℚ} {whole : Int} :
    int64Part? number = some whole ↔ toward number = whole ∧ IsInt64 whole := by
  rw [int64Part?, Option.ite_none_right_eq_some, and_comm, Option.some.injEq]
  exact and_congr_right fun same => by rw [same]

/-- There is no part with 64 bits when the one toward zero is out of range. -/
theorem int64Part?_eq_none_iff {number : ℚ} :
    int64Part? number = none ↔ ¬IsInt64 (toward number) := by
  rw [int64Part?, ite_eq_right_iff]
  simp only [reduceCtorEq, imp_false]

/-- A number with more than 19 digits in front of the point is out of the range. -/
theorem not_isInt64_of_many
    {number : Decimal}
    (nonzero : number.value ≠ 0)
    (many : 19 < number.digits - number.scale) :
    ¬IsInt64 (toward number.value) := by
  have large : (10 : ℚ) ^ (19 : Int) ≤ |number.value| := by
    rw [digits_sub_scale nonzero] at many
    exact_mod_cast (Int.zpow_le_iff_le_log (by decide) (abs_pos.2 nonzero)).2
      (by omega : (19 : Int) ≤ Int.log 10 |number.value|)
  have reached : (10 ^ 19 : Int) ≤ (toward number.value).natAbs := by
    rw [natAbs_toward, Int.le_floor]
    exact_mod_cast large
  unfold IsInt64
  omega

/-- Counting the digits first settles nothing that the value does not. -/
theorem toInt64?_eq (number : Decimal) : number.toInt64? = int64Part? number.value := by
  unfold toInt64?
  rw [truncated_eq_toward]
  split
  next zero =>
    rw [value_eq_zero_iff.2 zero]
    rfl
  next nonzero =>
    split
    next many =>
      exact (int64Part?_eq_none_iff.2
        (not_isInt64_of_many (mt value_eq_zero_iff.1 nonzero) many)).symm
    next => rfl

/-- The value decides whether a decimal is in the range of 64-bit integers. -/
theorem toInt64?_congr
    {first second : Decimal}
    (same : first.value = second.value) :
    first.toInt64? = second.toInt64? := by
  rw [toInt64?_eq, toInt64?_eq, same]

/-- The smallest difference that counts is a matter of the value, except at zero. -/
theorem value_maxError {number : Decimal} (nonzero : number.value ≠ 0) :
    number.maxError.value = 10 ^ (Int.log 10 |number.value| + 1 - internalPrecision) := by
  have places := digits_sub_scale nonzero
  rw [maxError, value_mk, Int.cast_one, one_mul]
  congr 1
  omega

/-- The largest error is positive, also that of zero. -/
theorem value_maxError_pos (number : Decimal) : 0 < number.maxError.value :=
  value_pos_iff.2 Int.one_pos

end Decimal
end Reckoner
