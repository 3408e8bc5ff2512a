import Reckoner.Proofs.Standard.Exponential
import Reckoner.Proofs.Standard.Logarithm

/-!
# Square roots of precise numbers

A square root is the exponential of half the logarithm.  An error of the logarithm is a relative
error of the root, to which the exponential adds its own; the digits that are kept beyond the
ones that are shown make up for both.
-/

namespace Reckoner
namespace Elementary

open Run Decimal

theorem value_half : (⟨5, 1⟩ : Decimal).value = 1 / 2 := by
  norm_num [Decimal.value]

theorem isZero_half : (Number.precise ⟨5, 1⟩).isZero = false := by
  rw [Number.isZero_precise, value_half]
  exact decide_eq_false (by norm_num)

section

variable {argument : Decimal}

/-- The square root is the power with the exponent one half. -/
theorem sqrt_eq_power (nonneg : 0 ≤ argument.value) :
    sqrt (.precise argument) = power (.precise argument) (.precise ⟨5, 1⟩) := by
  have parsed : Number.parse .precise "0.5" = .ok (.precise ⟨5, 1⟩) := by decide +kernel
  unfold sqrt
  rw [if_neg (Number.signum_neg_precise.not.2 nonneg.not_gt)]
  simp only [Number.kind_precise, parsed, lift_ok, pure_bind]

/-- Zero is its own square root. -/
theorem sqrt_of_value_eq_zero (zero : argument.value = 0) :
    sqrt (.precise argument) = pure (.precise .zero) := by
  have isZero : (Number.precise argument).isZero = true := by
    rw [Number.isZero_precise]
    exact decide_eq_true zero
  have nonneg : ¬(Number.precise argument).signum < 0 :=
    Number.signum_neg_precise.not.2 zero.not_lt
  rw [sqrt_eq_power zero.ge]
  unfold power
  simp only [isZero, isZero_half, nonneg, Bool.and_false, decide_false, Bool.false_and,
    Bool.false_eq_true, if_false, if_true]
  rfl

/-- A square root is a power by way of the logarithm, for an exponent of one half is too small for
repeated multiplication. -/
theorem sqrt_eq_generalPower (positive : 0 < argument.value) :
    sqrt (.precise argument) = generalPower (.precise argument) (.precise ⟨5, 1⟩) := by
  have nonneg : ¬(Number.precise argument).signum < 0 :=
    Number.signum_neg_precise.not.2 positive.not_gt
  have some : (Number.precise argument).isZero = false := by
    rw [Number.isZero_precise]
    exact decide_eq_false positive.ne'
  have fraction : isIntegerSized .precise (.precise ⟨5, 1⟩) = .ok false := by
    rw [isIntegerSized_precise, value_half]
    refine congrArg Except.ok (decide_eq_false fun sized => ?_)
    norm_num at sized
  rw [sqrt_eq_power positive.le]
  unfold power
  simp only [Number.kind_precise, some, isZero_half, nonneg, fraction, lift_ok, pure_bind,
    Bool.and_false, decide_false, Bool.false_and, Bool.false_eq_true, if_false]

end

/-- The square root of a number between two powers of two completes with a number near the exact
root.  The error has two parts: that of the logarithm, which grows with the number of halvings,
and that of the exponential, which doubles with each squaring. -/
theorem completes_sqrt
    {argument : Decimal}
    {count halvings : Nat}
    (lower : ((2 : ℝ) ^ count)⁻¹ ≤ argument.value)
    (upper : (argument.value : ℝ) ≤ 2 ^ count)
    (few : (count + 1) * roundingError internalPrecision ≤ 1 / 10)
    (bounded : (35 / 100 * count + 1 : ℝ) ≤ 99 / 100 * 2 ^ halvings)
    (times : halvings ≤ 1000) :
    Completes Caches.AreTables (sqrt (.precise argument)) fun result =>
      ∃ root : Decimal, result = .precise root ∧
        Near ((2 * count + 8) / 10 ^ 64 + 2 ^ halvings * (halvings + 4) / 10 ^ 64)
          (Real.sqrt argument.value) root.value := by
  have cast : (0 : ℝ) < argument.value := lower.trans_lt' (by positivity)
  have positive : 0 < argument.value := by exact_mod_cast cast
  have nonneg : ¬(Number.precise argument).signum < 0 := by
    rw [Number.signum_neg_precise]
    exact positive.not_gt
  have size : (Number.precise argument).abs = .precise argument := if_neg nonneg
  rw [sqrt_eq_generalPower positive]
  unfold generalPower
  simp only [size]
  refine (completes_ln lower upper few).bind ?_
  rintro _ ⟨logarithm, rfl, close⟩
  simp only [Number.mul_precise, lift_ok, pure_bind]
  have product : ((logarithm.mul ⟨5, 1⟩).value : ℝ) = logarithm.value / 2 := by
    rw [value_mul, value_half]
    push_cast
    ring
  have within : |((logarithm.mul ⟨5, 1⟩).value : ℝ)| ≤ 99 / 100 * 2 ^ halvings := by
    have least := Real.log_le_log (by positivity) lower
    have greatest := Real.log_le_log cast upper
    rw [Real.log_inv, Real.log_pow] at least
    rw [Real.log_pow] at greatest
    have two : count * Real.log 2 ≤ count * 0.7 :=
      mul_le_mul_of_nonneg_left (by linarith [Real.log_two_lt_d9]) count.cast_nonneg
    have tiny : (4 * count + 15 : ℝ) / 10 ^ 64 ≤ 1 := by
      rw [roundingError_internalPrecision] at few
      linarith
    obtain ⟨below, above⟩ := abs_le.1 close
    rw [product, abs_le]
    constructor <;> linarith
  refine (completes_exp within times).bind ?_
  rintro _ ⟨root, rfl, near⟩
  rw [if_neg nonneg]
  refine .pure ⟨root, rfl, ?_⟩
  have root_eq : Real.sqrt argument.value = Real.exp (Real.log argument.value / 2) := by
    rw [Real.exp_half, Real.exp_log cast]
  rw [root_eq]
  refine (Near.exp ?_).trans near
  rw [product, ← sub_div, abs_div, abs_two]
  linarith

/-- Every precise number within fifty orders of magnitude has a square root, whose square differs
from it by less than the digits that are shown tell. -/
theorem sqrt_accurate
    {argument : Decimal}
    (lower : 10 ^ (-50 : Int) ≤ argument.value)
    (upper : argument.value ≤ 10 ^ 50) :
    ∃ root : Decimal,
      Standard.Gives (sqrt (.precise argument)) (.precise root) ∧
      0 < root.value ∧
      |root.value * root.value - argument.value| ≤ 10 ^ (-60 : Int) * argument.value := by
  have least : (1 : ℝ) / 10 ^ 50 ≤ argument.value := by
    have bound : ((10 ^ (-50 : Int) : ℚ) : ℝ) ≤ argument.value := Rat.cast_le.2 lower
    norm_num at bound ⊢
    exact bound
  have greatest : (argument.value : ℝ) ≤ 10 ^ 50 := by exact_mod_cast upper
  have positive : (0 : ℝ) < argument.value := least.trans_lt' (by positivity)
  -- ten to the fiftieth is below two to the 167th, the half of whose logarithm is below two to
  -- the sixth
  have below : ((2 : ℝ) ^ 167)⁻¹ ≤ argument.value := le_trans (by norm_num) least
  have above : (argument.value : ℝ) ≤ 2 ^ 167 := greatest.trans (by norm_num)
  have logarithm : (35 / 100 * (167 : Nat) + 1 : ℝ) ≤ 99 / 100 * 2 ^ 6 := by norm_num
  have few : ((167 : Nat) + 1 : ℝ) * roundingError internalPrecision ≤ 1 / 10 := by
    rw [roundingError_internalPrecision]
    norm_num
  obtain ⟨_, ⟨root, rfl, near⟩, gives⟩ := Standard.gives_of_completes
    (completes_sqrt below above few logarithm (by decide))
  refine ⟨root, gives, ?_, ?_⟩
  · exact_mod_cast near.pos (Real.sqrt_pos.2 positive)
  · have close := (near.mul near).abs_sub_le (by norm_num)
    rw [Real.mul_self_sqrt positive.le, abs_of_pos positive] at close
    refine (Rat.cast_le (K := ℝ)).1 ?_
    push_cast
    refine close.trans (mul_le_mul_of_nonneg_right ?_ positive.le)
    norm_num

theorem sqrt_accurate_two :
    10 ^ (-50 : Int) ≤ (⟨2, 0⟩ : Decimal).value ∧ (⟨2, 0⟩ : Decimal).value ≤ 10 ^ 50 ∧
      ∃ root : Decimal,
        Standard.Gives (sqrt (.precise ⟨2, 0⟩)) (.precise root) ∧
        0 < root.value ∧ |root.value * root.value - 2| ≤ 10 ^ (-60 : Int) * 2 := by
  have value : (⟨2, 0⟩ : Decimal).value = 2 := by
    norm_num [Decimal.value]
  have lower : 10 ^ (-50 : Int) ≤ (⟨2, 0⟩ : Decimal).value := by
    rw [value]
    norm_num
  have upper : (⟨2, 0⟩ : Decimal).value ≤ 10 ^ 50 := by
    rw [value]
    norm_num
  obtain ⟨root, gives, positive, close⟩ := sqrt_accurate lower upper
  rw [value] at close
  exact ⟨lower, upper, root, gives, positive, close⟩

end Elementary
end Reckoner
