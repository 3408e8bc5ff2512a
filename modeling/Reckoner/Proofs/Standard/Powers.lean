import Reckoner.Proofs.Evaluation.Completion
import Reckoner.Proofs.Number.Powers
import Reckoner.Proofs.Standard.Precise

/-!
# Powers of precise numbers

Integer powers of decimals are correct to almost as many digits as their products keep, and
correct altogether as long as the digits suffice.  An operator takes exponents of any kind, and
gives an integer power where the exponent is an integer: nothing is left then for the logarithm
to do.
-/

namespace Reckoner
namespace Decimal

/-- A power with a positive exponent is what the loop of squarings gives. -/
theorem powInt_natCast (base : Decimal) {exponent : Nat} (atLeastOne : 1 ≤ exponent) :
    base.powInt exponent = .ok (powerLoop one base exponent) := by
  have nonzero : (exponent : Int) ≠ 0 := by omega
  have nonneg : ¬(exponent : Int) < 0 := by omega
  rw [powInt, if_neg nonzero, if_neg fun negative => nonneg negative.1]
  exact if_neg nonneg

/-- A power to a negative exponent is one divided by the power. -/
theorem powInt_neg
    {base : Decimal}
    (nonzero : base.value ≠ 0)
    {exponent : Nat}
    (atLeastOne : 1 ≤ exponent) :
    ∃ inverse, base.powInt (-exponent) = .ok inverse ∧
      inverse.value =
        roundSignificant internalPrecision (1 / (powerLoop one base exponent).value) := by
  have unscaled : base.unscaled ≠ 0 := mt value_eq_zero_iff.2 nonzero
  have power : (powerLoop one base exponent).value ≠ 0 := by
    rw [← sign_ne_zero, sign_power, sign_ne_zero]
    exact pow_ne_zero exponent nonzero
  have divides : (powerLoop one base exponent).unscaled ≠ 0 := mt value_eq_zero_iff.2 power
  have negative : -(exponent : Int) < 0 := by omega
  refine ⟨one.quotient (powerLoop one base exponent) internalPrecision, ?_, ?_⟩
  · rw [powInt, if_neg negative.ne, if_neg fun zero => unscaled zero.2, Int.natAbs_neg,
      Int.natAbs_natCast]
    exact (if_pos negative).trans (if_neg divides)
  · rw [value_quotient divides, value_one]

/-- A power has the sign that the exact one has. -/
theorem sign_powInt
    {base power : Decimal}
    (nonzero : base.value ≠ 0)
    {exponent : Int}
    (some : exponent ≠ 0)
    (raised : base.powInt exponent = .ok power) :
    SignType.sign power.value = SignType.sign (base.value ^ exponent) := by
  have inverse (number : ℚ) : SignType.sign (1 / number) = SignType.sign number := by
    rcases lt_trichotomy number 0 with negative | rfl | positive
    · rw [sign_neg negative, sign_neg (one_div_neg.2 negative)]
    · rw [div_zero]
    · rw [sign_pos positive, sign_pos (one_div_pos.2 positive)]
  obtain ⟨size, rfl | rfl⟩ := exponent.eq_nat_or_neg
  · rw [powInt_natCast base (by omega)] at raised
    cases raised
    rw [zpow_natCast]
    exact sign_power base size
  · obtain ⟨reciprocal, inverted, value⟩ := powInt_neg nonzero (show 1 ≤ size by omega)
    obtain rfl : reciprocal = power := Except.ok.inj (inverted.symm.trans raised)
    rw [value, sign_roundSignificant (by decide), inverse, sign_power, zpow_neg, zpow_natCast,
      ← one_div, inverse]

end Decimal

namespace Elementary

/-- Where the exponent is an integer, a power is an integer power. -/
theorem power_of_integral
    {base number power : Decimal}
    (nonzero : base.value ≠ 0)
    {exponent : Int}
    (value : number.value = exponent)
    (atLeastOne : 1 ≤ |exponent|)
    (small : |exponent| < 0x7fffffff)
    (raised : base.powInt exponent = .ok power)
    (limit : Nat)
    (machine : Machine) :
    Elementary.power (.precise base) (.precise number) limit machine =
      (.ok (.precise (power.mul .one)), machine) := by
  have baseNonzero : (Number.precise base).isZero = false := by
    rw [Number.isZero_precise]
    exact decide_eq_false nonzero
  have exponentNonzero : (Number.precise number).isZero = false := by
    rw [Number.isZero_precise, value]
    exact decide_eq_false (Int.cast_ne_zero.2 (abs_pos.1 atLeastOne))
  have integral : (Number.precise number).isIntegral = true := by
    rw [Number.isIntegral, Decimal.isIntegral_iff, value, Int.fract_intCast]
  have sized : isIntegerSized .precise (.precise number) = .ok true := by
    rw [isIntegerSized_precise, value]
    refine congrArg Except.ok (decide_eq_true ⟨?_, ?_⟩)
    · exact_mod_cast atLeastOne
    · exact_mod_cast small
  have whole : (Number.precise number).floor.toInt64? = some exponent := by
    have bounds := abs_lt.1 small
    refine Decimal.toInt64?_of_value_eq ?_ (by omega) (by omega)
    rw [Decimal.value_floor, value, Int.floor_intCast]
  have rest : (Number.precise number).fractionalPart.isZero = true := by
    rw [Number.fractionalPart, Number.isZero_precise, Decimal.value_fractionalPart, value,
      Int.fract_intCast]
    rfl
  have product : (Number.precise base).powInt exponent = .ok (.precise power) := by
    rw [Number.powInt, raised]
    rfl
  have kind : (Number.precise base).kind = .precise := rfl
  unfold Elementary.power
  simp only [baseNonzero, exponentNonzero, integral, whole, fractionalPower, rest, product, kind,
    sized, Run.lift_ok, pure_bind, Bool.and_false, Bool.not_true, Bool.true_or, Bool.and_true,
    Bool.false_eq_true, if_true, if_false]
  rfl

/-- An integer power differs from the power by less than its exponent tells, and is the power
where its digits suffice; the power to the opposite exponent is its reciprocal, rounded once.
The operator gives the same values, and with them the sign that the power has. -/
theorem powInt_accurate
    {base : Decimal}
    (nonzero : base.value ≠ 0)
    {exponent : Nat}
    (atLeastOne : 1 ≤ exponent)
    (small : exponent < 2 ^ 31 - 1) :
    ∃ power inverse,
      base.powInt exponent = .ok power ∧
      base.powInt (-exponent) = .ok inverse ∧
      |power.value - base.value ^ exponent| ≤
        exponent * 10 ^ (-79 : Int) * |base.value ^ exponent| ∧
      (digitCount (base.unscaled ^ exponent).natAbs ≤ 80 →
        power.value = base.value ^ exponent) ∧
      inverse.value = roundSignificant 65 (1 / power.value) ∧
      ∀ whole : Int, |whole| = exponent → ∀ number : Decimal, number.value = whole →
        ∃ integer result, base.powInt whole = .ok integer ∧
          (∀ limit machine, Elementary.power (.precise base) (.precise number) limit machine =
            (.ok (.precise result), machine)) ∧
          result.value = integer.value ∧
          SignType.sign result.value = SignType.sign (base.value ^ whole) := by
  have raised := Decimal.powInt_natCast base atLeastOne
  obtain ⟨inverse, inverted, valueInverse⟩ := Decimal.powInt_neg nonzero atLeastOne
  refine ⟨Decimal.powerLoop .one base exponent, inverse, raised, inverted,
    Decimal.abs_power_sub_le base (by omega), fun few => ?_, valueInverse,
    fun whole size number value => ?_⟩
  · have unscaled : base.unscaled ≠ 0 := mt Decimal.value_eq_zero_iff.2 nonzero
    rw [digitCount_le_iff (by decide)] at few
    rw [Decimal.value_powerLoop_of_few unscaled Int.one_ne_zero atLeastOne
      (by rwa [Decimal.one, Decimal.ofInt, one_mul]), Decimal.value_one, one_mul]
  · obtain ⟨integer, raised⟩ : ∃ integer, base.powInt whole = .ok integer := by
      rcases (abs_eq (Int.natCast_nonneg exponent)).1 size with rfl | rfl
      · exact ⟨_, raised⟩
      · exact ⟨_, inverted⟩
    have value_result : (integer.mul .one).value = integer.value := by
      rw [Decimal.value_mul, Decimal.value_one, mul_one]
    have some : whole ≠ 0 := abs_pos.1 (by omega)
    exact ⟨integer, integer.mul .one, raised,
      power_of_integral nonzero value (by omega) (by omega) raised, value_result,
      value_result ▸ Decimal.sign_powInt nonzero some raised⟩

/-- The hundredth power of one and a half has more digits than are kept. -/
theorem powInt_accurate_three_halves :
    (⟨15, 1⟩ : Decimal).value ≠ 0 ∧
      ∃ power inverse result,
        (⟨15, 1⟩ : Decimal).powInt 100 = .ok power ∧
        (⟨15, 1⟩ : Decimal).powInt (-100) = .ok inverse ∧
        |power.value - (3 / 2) ^ 100| ≤ 100 * 10 ^ (-79 : Int) * |(3 / 2) ^ 100| ∧
        inverse.value = roundSignificant 65 (1 / power.value) ∧
        Elementary.power (.precise ⟨15, 1⟩) (.precise ⟨-1000, 1⟩) 0 ⟨.never, .empty⟩ =
          (.ok (.precise result), ⟨.never, .empty⟩) ∧
        result.value = inverse.value := by
  have value : (⟨15, 1⟩ : Decimal).value = 3 / 2 := by
    norm_num [Decimal.value]
  have nonzero : (⟨15, 1⟩ : Decimal).value ≠ 0 := by
    rw [value]
    norm_num
  have exponent : (⟨-1000, 1⟩ : Decimal).value = (-100 : Int) := by
    norm_num [Decimal.value]
  obtain ⟨power, inverse, raised, inverted, close, -, reciprocal, operator⟩ :=
    powInt_accurate nonzero (show 1 ≤ 100 by decide) (by decide)
  obtain ⟨integer, result, same, runs, valueResult, -⟩ := operator (-100) rfl _ exponent
  obtain rfl : inverse = integer := Except.ok.inj (inverted.symm.trans same)
  rw [value] at close
  exact ⟨nonzero, power, inverse, result, raised, inverted, close, reciprocal,
    runs 0 ⟨.never, .empty⟩, valueResult⟩

end Elementary
end Reckoner
