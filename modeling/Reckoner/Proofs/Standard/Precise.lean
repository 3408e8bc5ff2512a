import Reckoner.Proofs.Number.Nearness
import Reckoner.Standard.Elementary

/-!
# Precise numbers in calculations

What calculations ask of precise numbers is a matter of their values: their signs, their order,
whether they are integers and which ones.
-/

namespace Reckoner
namespace Decimal

theorem signum_neg_iff {number : Decimal} : number.signum < 0 ↔ number.value < 0 := by
  rw [signum_eq_sign]
  rcases lt_trichotomy number.value 0 with negative | zero | positive
  · simp [negative]
  · simp [zero]
  · simp [positive, positive.le]

theorem signum_pos_iff {number : Decimal} : 0 < number.signum ↔ 0 < number.value := by
  rw [signum_eq_sign]
  rcases lt_trichotomy number.value 0 with negative | zero | positive
  · simp [negative, negative.le]
  · simp [zero]
  · simp [positive]

theorem signum_eq_zero_iff {number : Decimal} : number.signum = 0 ↔ number.value = 0 := by
  rw [signum, Int.sign_eq_zero_iff_zero, value_eq_zero_iff]

/-- The size of a decimal. -/
def abs (number : Decimal) : Decimal :=
  if number.signum < 0 then number.neg else number

@[simp] theorem value_abs (number : Decimal) : number.abs.value = |number.value| := by
  unfold abs
  split
  next negative => rw [value_neg, abs_of_neg (signum_neg_iff.1 negative)]
  next nonneg => rw [abs_of_nonneg (not_lt.1 (mt signum_neg_iff.2 nonneg))]

/-- The smallest difference that counts is a unit in the last place, so that it is in proportion
to the number up to a factor of ten. -/
theorem maxError_bounds {number : Decimal} (nonzero : number.value ≠ 0) :
    |(number.value : ℝ)| / 10 ^ 65 ≤ number.maxError.value ∧
      (number.maxError.value : ℝ) ≤ |(number.value : ℝ)| / 10 ^ 64 := by
  have size : 0 < |number.value| := abs_pos.2 nonzero
  have lower : (10 : ℚ) ^ Int.log 10 |number.value| ≤ |number.value| := by
    exact_mod_cast Int.zpow_log_le_self (by decide) size
  have upper : |number.value| < (10 : ℚ) ^ (Int.log 10 |number.value| + 1) := by
    exact_mod_cast Int.lt_zpow_succ_log_self (by decide) |number.value|
  have ofLower : number.maxError.value = 10 ^ Int.log 10 |number.value| / 10 ^ 64 := by
    rw [value_maxError nonzero, ← zpow_natCast, ← zpow_sub₀ (by norm_num)]
    congr 1
    change _ + 1 - 65 = _
    omega
  have ofUpper : number.maxError.value = 10 ^ (Int.log 10 |number.value| + 1) / 10 ^ 65 := by
    rw [value_maxError nonzero, ← zpow_natCast, ← zpow_sub₀ (by norm_num)]
    rfl
  have below : |number.value| / 10 ^ 65 ≤ number.maxError.value := by
    rw [ofUpper]
    exact div_le_div_of_nonneg_right upper.le (by positivity)
  have above : number.maxError.value ≤ |number.value| / 10 ^ 64 := by
    rw [ofLower]
    exact div_le_div_of_nonneg_right lower (by positivity)
  exact ⟨by exact_mod_cast below, by exact_mod_cast above⟩

/-- What counts for a number is in proportion to it, zero included. -/
theorem abs_div_le_maxError (number : Decimal) :
    |(number.value : ℝ)| / 10 ^ 65 ≤ number.maxError.value := by
  by_cases zero : number.value = 0
  · rw [zero, Rat.cast_zero, abs_zero, zero_div]
    exact_mod_cast (value_maxError_pos number).le
  · exact (maxError_bounds zero).1

theorem value_two : (ofInt 2).value = 2 := by
  rw [value_ofInt]
  rfl

/-- An integer in the range of 64-bit integers is found in every form. -/
theorem toInt64?_of_value_eq
    {number : Decimal}
    {whole : Int}
    (value : number.value = whole)
    (above : -0x8000000000000000 ≤ whole)
    (below : whole < 0x8000000000000000) :
    number.toInt64? = some whole := by
  rw [toInt64?_eq, value, int64Part?, toward_intCast]
  exact if_pos ⟨above, below⟩

end Decimal

namespace Number

@[simp] theorem kind_precise (number : Decimal) : (precise number).kind = .precise := rfl

@[simp] theorem ofInt_precise (number : Int) :
    ofInt .precise number = precise (.ofInt number) := rfl

@[simp] theorem one_precise : one .precise = precise .one := rfl

@[simp] theorem add_precise (first second : Decimal) :
    (precise first).add (precise second) = .ok (precise (first.add second)) := rfl

@[simp] theorem sub_precise (first second : Decimal) :
    (precise first).sub (precise second) = .ok (precise (first.sub second)) := rfl

@[simp] theorem mul_precise (first second : Decimal) :
    (precise first).mul (precise second) = .ok (precise (first.mul second)) := rfl

@[simp] theorem neg_precise (number : Decimal) : (precise number).neg = precise number.neg := rfl

@[simp] theorem maxError_precise (number : Decimal) :
    (precise number).maxError = precise number.maxError := rfl

/-- Precise numbers are compared by their values. -/
theorem compare_precise (first second : Decimal) :
    (precise first).compare (precise second) = .ok (Ord.compare first.value second.value) := by
  rw [compare, first.order_eq_compare]

theorem signum_pos_precise {number : Decimal} : 0 < (precise number).signum ↔ 0 < number.value :=
  Decimal.signum_pos_iff

theorem signum_neg_precise {number : Decimal} : (precise number).signum < 0 ↔ number.value < 0 :=
  Decimal.signum_neg_iff

theorem signum_nonpos_precise {number : Decimal} :
    (precise number).signum ≤ 0 ↔ number.value ≤ 0 := by
  rw [← not_lt, signum_pos_precise, not_lt]

theorem signum_nonneg_precise {number : Decimal} :
    0 ≤ (precise number).signum ↔ 0 ≤ number.value := by
  rw [← not_lt, signum_neg_precise, not_lt]

theorem abs_precise (number : Decimal) : (precise number).abs = precise number.abs := by
  unfold abs Decimal.abs
  split
  next negative => exact congrArg precise (if_pos negative).symm
  next nonneg => exact congrArg precise (if_neg nonneg).symm

theorem isZero_precise (number : Decimal) :
    (precise number).isZero = decide (number.value = 0) := by
  rw [isZero, Bool.eq_iff_iff, decide_eq_true_iff, beq_iff_eq]
  exact Decimal.signum_eq_zero_iff

/-- A quotient by a number that is not zero is rounded once. -/
theorem div_precise (first : Decimal) {second : Decimal} (nonzero : second.value ≠ 0) :
    ∃ quotient, (precise first).div (precise second) = .ok (.precise quotient) ∧
      quotient.value = roundSignificant Decimal.internalPrecision (first.value / second.value) := by
  have divides : second.unscaled ≠ 0 := mt Decimal.value_eq_zero_iff.2 nonzero
  refine ⟨first.quotient second Decimal.internalPrecision, ?_, Decimal.value_quotient divides _⟩
  rw [div, Decimal.div, if_neg divides]
  rfl

/-- A quotient by an integer is rounded once. -/
theorem div_ofInt_precise (number : Decimal) {divisor : Int} (nonzero : divisor ≠ 0) :
    ∃ quotient, (precise number).div (precise (.ofInt divisor)) = .ok (.precise quotient) ∧
      quotient.value = roundSignificant Decimal.internalPrecision (number.value / divisor) := by
  have divides : (Decimal.ofInt divisor).value ≠ 0 := by
    rw [Decimal.value_ofInt]
    exact_mod_cast nonzero
  obtain ⟨quotient, divided, value⟩ := div_precise number divides
  rw [Decimal.value_ofInt] at value
  exact ⟨quotient, divided, value⟩

section

variable {error other exact factor : ℝ} {first second : Decimal}
  (near : Near error exact first.value)

include near

/-- A quotient adds the errors of its operands and that of one rounding. -/
theorem near_div
    (nearDivisor : Near other factor second.value)
    (nonzero : factor ≠ 0) :
    ∃ quotient, (precise first).div (precise second) = .ok (.precise quotient) ∧
      Near (error + other + roundingError Decimal.internalPrecision) (exact / factor)
        quotient.value := by
  have divides : second.value ≠ 0 := Rat.cast_ne_zero.1 (nearDivisor.ne_zero nonzero)
  obtain ⟨quotient, divided, value⟩ := div_precise first divides
  refine ⟨quotient, divided, ?_⟩
  rw [value, div_eq_mul_inv]
  refine (near.mul nearDivisor.inv).trans ?_
  rw [← div_eq_mul_inv, ← Rat.cast_div]
  exact near_roundSignificant (by decide) _

/-- A quotient by an integer carries one more error of rounding. -/
theorem near_div_natCast {divisor : Nat} (nonzero : divisor ≠ 0) :
    ∃ quotient, (precise first).div (precise (.ofInt divisor)) = .ok (.precise quotient) ∧
      Near (error + roundingError Decimal.internalPrecision) (exact / divisor) quotient.value := by
  have quotient := near_div near (Decimal.near_ofInt_natCast divisor) (Nat.cast_ne_zero.2 nonzero)
  rwa [add_zero] at quotient

/-- A number that is trimmed carries one more error of rounding. -/
theorem near_trimmed :
    ∃ number, (precise first).trimmed = .precise number ∧
      Near (error + roundingError Decimal.powerPrecision) exact number.value :=
  ⟨_, rfl, near.trans (Decimal.near_rounded (by decide) first)⟩

/-- A trimmed product adds the errors of its factors and that of one rounding. -/
theorem near_trimmed_mul (nearFactor : Near other factor second.value) :
    ∃ product, (precise (first.mul second)).trimmed = .precise product ∧
      Near (error + other + roundingError Decimal.powerPrecision) (exact * factor)
        product.value := by
  have product := near.mul nearFactor
  rw [← Rat.cast_mul, ← Decimal.value_mul] at product
  exact near_trimmed product

end

/-- A series has so few terms that the errors of its powers do not count. -/
theorem few_roundings {count : Nat} (few : count ≤ 1000) :
    count * roundingError Decimal.powerPrecision ≤ 1 / 10 ^ 70 := by
  have cast : (count : ℝ) ≤ 1000 := by exact_mod_cast few
  rw [roundingError_powerPrecision]
  norm_num
  linarith

/-- The error of a term of a series is that of the one quotient that gives it. -/
theorem abs_term_sub_le
    {count : Nat}
    (few : count ≤ 1000)
    {exact term : ℝ}
    (near : Near (count * roundingError Decimal.powerPrecision +
      roundingError Decimal.internalPrecision) exact term) :
    |term - exact| ≤ 67 / 10 ^ 66 * |exact| := by
  have roundings := few_roundings few
  have unit := roundingError_internalPrecision
  refine (near.abs_sub_le (by linarith)).trans (mul_le_mul_of_nonneg_right ?_ (abs_nonneg exact))
  linarith

end Number

namespace Elementary

/-- Precise numbers exceed each other if their values do. -/
theorem exceeds_precise (first second : Decimal) :
    exceeds (.precise first) (.precise second) = .ok (decide (second.value < first.value)) := by
  rw [exceeds, Number.compare_precise]
  refine congrArg Except.ok ?_
  rw [Bool.eq_iff_iff, decide_eq_true_iff, beq_iff_eq, compare_gt_iff_gt]

theorem atLeast_precise (first second : Decimal) :
    atLeast (.precise first) (.precise second) = .ok (decide (second.value ≤ first.value)) := by
  rw [atLeast, Number.compare_precise]
  refine congrArg Except.ok ?_
  rw [Bool.eq_iff_iff, decide_eq_true_iff, bne_iff_ne, ne_eq, compare_lt_iff_lt, not_lt]

/-- An exponent is treated like an integer if its size is between one and the greatest 32-bit
one. -/
theorem isIntegerSized_precise (exponent : Decimal) :
    isIntegerSized .precise (.precise exponent) =
      .ok (decide (1 ≤ |exponent.value| ∧ |exponent.value| < 0x7fffffff)) := by
  rw [isIntegerSized, Number.abs_precise, Number.one_precise, Number.ofInt_precise, atLeast_precise,
    exceeds_precise, Decimal.value_abs, Decimal.value_one, Decimal.value_ofInt]
  push_cast
  by_cases atLeastOne : 1 ≤ |exponent.value|
  · simp [atLeastOne, bind, Except.bind]
  · simp [atLeastOne, bind, Except.bind, pure, Except.pure]

end Elementary
end Reckoner
