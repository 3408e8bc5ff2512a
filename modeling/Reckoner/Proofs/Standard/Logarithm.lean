import Reckoner.Proofs.Standard.Completion
import Reckoner.Proofs.Standard.Precise

/-!
# The logarithm of precise numbers

The argument is halved or doubled until it is near one.  Doubling is exact, and halving is
rounded, so that each halving contributes an error of rounding.  The series near one and that of
the logarithm of two stop when their last term no longer counts, which then bounds what they
leave out.
-/

namespace Reckoner
namespace Elementary

open Run Decimal

variable {sound : Caches → Prop}

/-! ## Scaling -/

/-- A number that has been halved some times, or doubled if these are negative; only halves are
rounded. -/
structure IsMoved (exact : ℝ) (value : Decimal) (halvings : Int) : Prop where
  near : Near (halvings.toNat * roundingError internalPrecision) exact (value.value * 2 ^ halvings)

/-- Before the first step the argument has not been moved. -/
theorem isMoved_start (argument : Decimal) : IsMoved argument.value argument 0 where
  near := by
    rw [Int.toNat_zero, Nat.cast_zero, zero_mul, zpow_zero, mul_one]
    exact .refl le_rfl _

/-- A halving adds the error of one rounding. -/
theorem IsMoved.half
    {exact : ℝ}
    {value half : Decimal}
    {halvings : Int}
    (moved : IsMoved exact value halvings)
    (upward : 0 ≤ halvings)
    (valueHalf : half.value = roundSignificant internalPrecision (value.value / 2)) :
    IsMoved exact half (halvings + 1) := by
  have near : Near (roundingError internalPrecision) (value.value / 2 : ℝ) half.value := by
    rw [valueHalf, ← Rat.cast_ofNat, ← Rat.cast_div]
    exact near_roundSignificant (by decide) _
  have same : (2 : ℝ) ^ (halvings + 1) * (value.value / 2) = value.value * 2 ^ halvings := by
    rw [zpow_add_one₀ two_ne_zero]
    ring
  have further := near.mul_left (2 ^ (halvings + 1))
  rw [same, mul_comm _ (half.value : ℝ)] at further
  refine ⟨(moved.near.trans further).mono (le_of_eq ?_)⟩
  rw [show (halvings + 1).toNat = halvings.toNat + 1 by omega]
  push_cast
  ring

/-- A doubling is exact. -/
theorem IsMoved.double
    {exact : ℝ}
    {value double : Decimal}
    {halvings : Int}
    (moved : IsMoved exact value halvings)
    (downward : halvings ≤ 0)
    (valueDouble : double.value = value.value * 2) :
    IsMoved exact double (halvings - 1) := by
  have power : (2 : ℝ) ^ halvings = 2 * 2 ^ (halvings - 1) := by
    rw [← zpow_one_add₀ two_ne_zero, add_sub_cancel]
  have same : (halvings - 1).toNat = halvings.toNat := by omega
  have near := moved.near
  rw [power, ← mul_assoc, ← same] at near
  refine ⟨?_⟩
  rw [valueDouble]
  exact_mod_cast near

/-- An argument on its way to one, which is not crossed before the end.  There are no more
halvings or doublings than a number, of which some are left. -/
structure IsScaling
    (exact : ℝ)
    (count left : Nat)
    (value : Decimal)
    (halvings : Int) : Prop where
  total : halvings.natAbs + left = count
  positive : 0 < value.value
  halved : 0 < halvings → 1 < value.value
  doubled : halvings < 0 → value.value < 1
  moved : IsMoved exact value halvings

/-- A scaled argument. -/
structure IsScaled (exact : ℝ) (count : Nat) (value : Decimal) (halvings : Int) : Prop where
  total : halvings.natAbs ≤ count
  lower : 11 / 20 ≤ value.value
  upper : value.value ≤ 9 / 5
  moved : IsMoved exact value halvings

/-- Halving an argument that is too large brings it to one or leaves it above. -/
theorem IsScaling.halve
    {exact : ℝ}
    {count left : Nat}
    {value half : Decimal}
    {halvings : Int}
    (scaling : IsScaling exact (count + 1) left value halvings)
    (early : halvings.natAbs ≤ count)
    (far : 11 / 10 ≤ value.value)
    (valueHalf : half.value = roundSignificant internalPrecision (value.value / 2)) :
    (half.value ≤ 1 → IsScaled exact (count + 1) half (halvings + 1)) ∧
      (1 < half.value → IsScaling exact (count + 1) (left - 1) half (halvings + 1)) := by
  have total := scaling.total
  have upward : 0 ≤ halvings := by
    by_contra negative
    linarith [scaling.doubled (not_le.1 negative)]
  have moved := scaling.moved.half upward valueHalf
  have few : HasDigits internalPrecision (11 / 20) :=
    ⟨⟨55, 2⟩, by decide +kernel, by norm_num [value_mk]⟩
  have least : 11 / 20 ≤ half.value := by
    rw [valueHalf]
    exact few.le_roundSignificant (by decide) (by linarith)
  constructor
  · intro crossed
    exact ⟨by omega, least, by linarith, moved⟩
  · intro further
    exact ⟨by omega, by linarith, fun _ => further, fun negative => by omega, moved⟩

/-- Doubling an argument that is too small brings it to one or leaves it below. -/
theorem IsScaling.double
    {exact : ℝ}
    {count left : Nat}
    {value double : Decimal}
    {halvings : Int}
    (scaling : IsScaling exact (count + 1) left value halvings)
    (early : halvings.natAbs ≤ count)
    (far : value.value ≤ 9 / 10)
    (valueDouble : double.value = value.value * 2) :
    (1 ≤ double.value → IsScaled exact (count + 1) double (halvings - 1)) ∧
      (double.value < 1 → IsScaling exact (count + 1) (left - 1) double (halvings - 1)) := by
  have total := scaling.total
  have positive := scaling.positive
  have downward : halvings ≤ 0 := by
    by_contra positive
    linarith [scaling.halved (not_le.1 positive)]
  have moved := scaling.moved.double downward valueDouble
  constructor
  · intro crossed
    exact ⟨by omega, by linarith, by linarith, moved⟩
  · intro further
    exact ⟨by omega, by linarith, fun positive => by omega, fun _ => further, moved⟩

section

variable {exact : ℝ} {count : Nat} (lower : ((2 : ℝ) ^ count)⁻¹ ≤ exact) (upper : exact ≤ 2 ^ count)
  (few : (count + 1) * roundingError internalPrecision ≤ 1 / 10)

include lower upper few

/-- An argument that has not arrived has been moved no more often than there are powers of two on
its way. -/
theorem IsScaling.early
    {left : Nat}
    {value : Decimal}
    {halvings : Int}
    (scaling : IsScaling exact (count + 1) left value halvings) :
    halvings.natAbs ≤ count := by
  have total := scaling.total
  have unit := roundingError_pos internalPrecision
  rcases lt_trichotomy halvings 0 with negative | rfl | positive
  -- doubling is exact, so that the doublings are bounded by the argument itself
  · have none : halvings.toNat = 0 := by omega
    have moved := scaling.moved.near
    rw [none, Nat.cast_zero, zero_mul] at moved
    have least := moved.ge (by norm_num) lower (by positivity)
    have below : (value.value : ℝ) < 1 := by exact_mod_cast scaling.doubled negative
    have power : (2 : ℝ) ^ (-(count : Int)) < 2 ^ halvings := by
      rw [zpow_neg, zpow_natCast]
      have smaller := mul_lt_of_lt_one_left (zpow_pos (two_pos : (0 : ℝ) < 2) halvings) below
      linarith
    have exponents := (zpow_lt_zpow_iff_right₀ one_lt_two).1 power
    omega
  · exact Nat.zero_le count
  -- the errors of all halvings together do not amount to a factor of two
  · have times : ((halvings.toNat : Nat) : ℝ) ≤ count + 1 := by
      exact_mod_cast (show halvings.toNat ≤ count + 1 by omega)
    have error : halvings.toNat * roundingError internalPrecision ≤ 1 / 10 :=
      (mul_le_mul_of_nonneg_right times unit.le).trans few
    have greatest := scaling.moved.near.le error upper (by positivity)
    have above : (1 : ℝ) < value.value := by exact_mod_cast scaling.halved positive
    have power : (2 : ℝ) ^ halvings < 2 ^ ((count : Int) + 1) := by
      rw [zpow_add_one₀ two_ne_zero, zpow_natCast]
      have larger := lt_mul_of_one_lt_left (zpow_pos (two_pos : (0 : ℝ) < 2) halvings) above
      have whole : (0 : ℝ) < 2 ^ count := by positivity
      nlinarith
    have exponents := (zpow_lt_zpow_iff_right₀ one_lt_two).1 power
    omega

/-- A step of the reduction halves or doubles the argument and comes nearer to the end, or is
the last one. -/
theorem completes_scaleStep
    {left : Nat}
    {value : Decimal}
    {halvings : Int}
    (scaling : IsScaling exact (count + 1) left value halvings) :
    Completes sound
      (scaleStep (.precise .one) (.precise (.ofInt 2)) (.precise ⟨1, 1⟩) (.precise value, halvings))
      (Advances
        (fun left state => ∃ value halvings, state = (.precise value, halvings) ∧
          IsScaling exact (count + 1) left value halvings)
        (fun state => ∃ value halvings, state = (.precise value, halvings) ∧
          IsScaled exact (count + 1) value halvings)
        left) := by
  have early := scaling.early lower upper few
  have total := scaling.total
  have tenth : (⟨1, 1⟩ : Decimal).value = 1 / 10 := by
    norm_num [Decimal.value]
  unfold scaleStep
  simp only [Number.sub_precise, Number.mul_precise, Number.abs_precise, Number.signum_pos_precise,
    Number.signum_nonneg_precise, atLeast_precise, lift_ok, pure_bind,
    decide_eq_true_iff, value_abs,
    value_sub, value_one, tenth]
  split
  next far =>
    refine Completes.check.bind fun _ _ => ?_
    split
    next above =>
      rw [abs_of_pos above] at far
      obtain ⟨half, divides, valueHalf⟩ := Number.div_ofInt_precise value two_ne_zero
      rw [Int.cast_ofNat] at valueHalf
      obtain ⟨arrives, goesOn⟩ := scaling.halve early (by linarith) valueHalf
      simp only [divides, lift_ok, pure_bind, Number.sub_precise, Number.signum_nonpos_precise,
        value_sub, value_one]
      split
      next crossed => exact .pure ⟨half, halvings + 1, rfl, arrives (by linarith)⟩
      next further =>
        exact .pure ⟨left - 1, by omega, half, halvings + 1, rfl, goesOn (by linarith)⟩
    next below =>
      rw [abs_of_nonpos (not_lt.1 below)] at far
      have valueDouble : (value.mul (.ofInt 2)).value = value.value * 2 := by
        rw [value_mul, value_two]
      obtain ⟨arrives, goesOn⟩ := scaling.double early (by linarith) valueDouble
      split
      next crossed => exact .pure ⟨_, halvings - 1, rfl, arrives (by linarith)⟩
      next further =>
        exact .pure ⟨left - 1, by omega, _, halvings - 1, rfl, goesOn (by linarith)⟩
  next close =>
    rw [not_le, abs_lt] at close
    exact .pure ⟨value, halvings, rfl, by omega, by linarith, by linarith, scaling.moved⟩

end

/-- The argument reduction ends near one. -/
theorem completes_scaling
    {argument : Decimal}
    {count : Nat}
    (lower : ((2 : ℝ) ^ count)⁻¹ ≤ argument.value)
    (upper : (argument.value : ℝ) ≤ 2 ^ count)
    (few : (count + 1) * roundingError internalPrecision ≤ 1 / 10) :
    Completes sound
      (repeatUntil (scaleStep (.precise .one) (.precise (.ofInt 2)) (.precise ⟨1, 1⟩))
        (.precise argument, 0))
      fun state => ∃ value halvings, state = (.precise value, halvings) ∧
        IsScaled argument.value (count + 1) value halvings := by
  have positive : 0 < argument.value := by
    have least : (0 : ℝ) < argument.value := lower.trans_lt' (by positivity)
    exact_mod_cast least
  refine .repeatUntil
    (fun left state => ∃ value halvings, state = (.precise value, halvings) ∧
      IsScaling argument.value (count + 1) left value halvings)
    ?_ ⟨argument, 0, rfl, Nat.zero_add _, positive, by simp, by simp, isMoved_start argument⟩
  rintro left _ ⟨value, halvings, rfl, scaling⟩
  exact completes_scaleStep lower upper few scaling

/-! ## The series near one -/

open Finset

/-- The terms of the logarithm series up to an index, for a number subtracted from one. -/
noncomputable def lnSum (number : ℝ) (count : Nat) : ℝ :=
  ∑ index ∈ range count, number ^ (index + 1) / (index + 1)

theorem lnSum_succ (number : ℝ) (count : Nat) :
    lnSum number (count + 1) = lnSum number count + number ^ (count + 1) / (count + 1 : Nat) := by
  rw [lnSum, sum_range_succ, Nat.cast_succ]
  rfl

/-- The sum of the terms is the Taylor polynomial of the logarithm, with the opposite sign. -/
theorem logTaylor_neg (number : ℝ) (count : Nat) :
    Complex.logTaylor (count + 1) (-number : ℝ) = ((-lnSum number count : ℝ) : ℂ) := by
  induction count with
  | zero => simp [Complex.logTaylor, lnSum]
  | succ count hypothesis =>
      rw [Complex.logTaylor_succ, Pi.add_apply, hypothesis, lnSum, lnSum, sum_range_succ]
      push_cast
      rw [neg_pow (number : ℂ), ← mul_assoc, ← pow_add, Odd.neg_one_pow ⟨count + 1, by ring⟩]
      ring

/-- The remainder of the series is bounded by a geometric one. -/
theorem abs_lnSum_add_log_le {number : ℝ} (small : |number| < 1) (count : Nat) :
    |lnSum number count + Real.log (1 - number)| ≤
      |number| ^ (count + 1) * (1 - |number|)⁻¹ / (count + 1) := by
  have size : ‖((-number : ℝ) : ℂ)‖ = |number| := by
    rw [Complex.norm_real, Real.norm_eq_abs, abs_neg]
  have positive : 0 ≤ 1 - number := by
    linarith [(abs_lt.1 small).2]
  have bound := Complex.norm_log_sub_logTaylor_le count (size.trans_lt small)
  rw [logTaylor_neg, size] at bound
  have same : Complex.log (1 + ((-number : ℝ) : ℂ)) - ((-lnSum number count : ℝ) : ℂ) =
      ((lnSum number count + Real.log (1 - number) : ℝ) : ℂ) := by
    rw [sub_eq_add_neg 1 number] at positive ⊢
    rw [← Complex.ofReal_one, ← Complex.ofReal_add, ← Complex.ofReal_log positive]
    push_cast
    ring
  rwa [same, Complex.norm_real] at bound

/-- What the logarithm series of one less a number has worked out when it has added so many terms
and one more.  Its error is that of rounding its terms, which are smaller than a geometric
series. -/
structure IsLnSeries (number : ℝ) (count : Nat) (numerator term sum : Decimal) : Prop where
  numerator : Near (count * roundingError powerPrecision) (-number ^ (count + 1)) numerator.value
  term : Near (count * roundingError powerPrecision + roundingError internalPrecision)
    (-number ^ (count + 1) / (count + 1 : Nat)) term.value
  sum : |(sum.value : ℝ) + lnSum number (count + 1)| ≤
    28 / 10 ^ 65 * (1 - |number| ^ (count + 1))

section

variable {number : ℝ} (small : |number| ≤ 4 / 5)

include small

/-- Before the first term the invariant of the series holds with exact numbers. -/
theorem isLnSeries_start
    {distance : Decimal}
    (opposite : (distance.value : ℝ) = -number) :
    IsLnSeries number 0 distance distance distance where
  numerator := by
    rw [opposite, zero_add, pow_one]
    exact .refl (by simp) _
  term := by
    rw [opposite, zero_add, pow_one, Nat.cast_one, div_one]
    exact .refl (by simpa using (roundingError_pos internalPrecision).le) _
  sum := by
    rw [opposite, lnSum, zero_add, sum_range_one, zero_add, pow_one,
      Nat.cast_zero, zero_add, div_one,
      neg_add_cancel, abs_zero, pow_one]
    exact mul_nonneg (by positivity) (by linarith)

/-- A step of the series finds the next term, and keeps the invariant. -/
theorem IsLnSeries.next
    {count : Nat}
    {distance numerator term sum : Decimal}
    (opposite : (distance.value : ℝ) = -number)
    (series : IsLnSeries number count numerator term sum)
    (few : count + 1 ≤ 1000) :
    ∃ nextNumerator nextTerm : Decimal,
      (Number.precise (numerator.mul distance).neg).trimmed = .precise nextNumerator ∧
      (Number.precise nextNumerator).div (.precise (.ofInt ((count + 1 : Nat) + 1))) =
        .ok (.precise nextTerm) ∧
      IsLnSeries number (count + 1) nextNumerator nextTerm (sum.add nextTerm) := by
  have exact : Near 0 (-number) distance.value := opposite ▸ .refl le_rfl _
  have product := (series.numerator.mul exact).neg
  have power : -(-number ^ (count + 1) * -number) = -number ^ (count + 1 + 1) := by
    ring
  rw [power, ← Rat.cast_mul, ← value_mul, ← Rat.cast_neg, ← value_neg] at product
  obtain ⟨nextNumerator, trimmed, nearNumerator⟩ := Number.near_trimmed product
  rw [add_zero, mul_roundingError_add] at nearNumerator
  obtain ⟨nextTerm, divides, nearTerm⟩ :=
    Number.near_div_natCast nearNumerator (count + 1).succ_ne_zero
  refine ⟨nextNumerator, nextTerm, trimmed, divides, nearNumerator, nearTerm, ?_⟩
  have nonneg : 0 ≤ |number| ^ (count + 1) := by positivity
  have size :
      |-number ^ (count + 1 + 1) / (count + 1 + 1 : Nat)| ≤ |number| ^ (count + 1) * |number| := by
    rw [abs_div, abs_neg, abs_pow, pow_succ, Nat.abs_cast]
    exact div_le_self (by positivity) (by exact_mod_cast (count + 1).succ_pos)
  have close := (Number.abs_term_sub_le few nearTerm).trans
    (mul_le_mul_of_nonneg_left size (by positivity))
  have parts : (sum.value + nextTerm.value : ℝ) + lnSum number (count + 1 + 1) =
      (sum.value + lnSum number (count + 1)) +
        (nextTerm.value - -number ^ (count + 1 + 1) / (count + 1 + 1 : Nat)) := by
    rw [lnSum_succ number (count + 1)]
    ring
  rw [value_add, Rat.cast_add, parts]
  calc |_ + _|
    _ ≤ _ + _ := abs_add_le _ _
    _ ≤ _ + _ := add_le_add series.sum close
    _ ≤ 28 / 10 ^ 65 * (1 - |number| ^ (count + 1 + 1)) := by
      rw [pow_succ _ (count + 1)]
      nlinarith

/-- A series that goes on has not added many terms yet. -/
theorem IsLnSeries.early
    {count : Nat}
    {numerator term sum : Decimal}
    (series : IsLnSeries number count numerator term sum)
    (few : count ≤ 1000)
    {bound : ℝ}
    (positive : 5 / 10 ^ 66 ≤ bound)
    (goesOn : bound < |(term.value : ℝ)|) :
    count < 680 := by
  have roundings := Number.few_roundings few
  have unit := roundingError_internalPrecision
  by_contra late
  have size : |-number ^ (count + 1) / (count + 1 : Nat)| ≤ 2 / 10 ^ 66 := by
    rw [abs_div, abs_neg, abs_pow, Nat.abs_cast]
    calc |number| ^ (count + 1) / (count + 1 : Nat)
      _ ≤ |number| ^ (count + 1) :=
        div_le_self (by positivity) (by exact_mod_cast count.succ_pos)
      _ ≤ |number| ^ 680 := pow_le_pow_of_le_one (abs_nonneg _) (by linarith) (by omega)
      _ ≤ (4 / 5) ^ 680 := pow_le_pow_left₀ (abs_nonneg _) small 680
      _ = ((4 / 5) ^ 68) ^ 10 := by rw [← pow_mul]
      _ ≤ (26 / 10 ^ 8) ^ 10 := pow_le_pow_left₀ (by positivity) (by norm_num) 10
      _ ≤ 2 / 10 ^ 66 := by norm_num
  have upper := series.term.abs.le (by rw [unit]; linarith) size (by positivity)
  rw [unit] at upper
  nlinarith

/-- When the series stops, the terms that it leaves out no longer count. -/
theorem IsLnSeries.accurate
    {count : Nat}
    {numerator term sum : Decimal}
    (series : IsLnSeries number count numerator term sum)
    (few : count ≤ 1000)
    {bound : ℝ}
    (tiny : bound ≤ 18 / 10 ^ 65)
    (stops : |(term.value : ℝ)| ≤ bound) :
    |(sum.value : ℝ) - Real.log (1 - number)| ≤ 11 / 10 ^ 64 := by
  have roundings := Number.few_roundings few
  have unit := roundingError_internalPrecision
  have last : |number| ^ (count + 1) / (count + 1 : Nat) ≤ 181 / 10 ^ 66 := by
    have size : |-number ^ (count + 1) / (count + 1 : Nat)| =
      |number| ^ (count + 1) / (count + 1 : Nat) := by
      rw [abs_div, abs_neg, abs_pow, Nat.abs_cast]
    have nonneg : 0 ≤ |number| ^ (count + 1) / (count + 1 : Nat) := by positivity
    have lower := series.term.abs.ge (by rw [unit]; linarith) size.ge nonneg
    rw [unit] at lower
    nlinarith
  have tail : |lnSum number (count + 1) + Real.log (1 - number)| ≤ 181 / 10 ^ 66 * 4 := by
    have below : 0 < 1 - |number| := by linarith
    have ratio : |number| * (1 - |number|)⁻¹ ≤ 4 := by
      rw [← div_eq_mul_inv, div_le_iff₀ below]
      linarith
    calc |lnSum number (count + 1) + Real.log (1 - number)|
      _ ≤ |number| ^ (count + 1 + 1) * (1 - |number|)⁻¹ / ((count + 1 : Nat) + 1) :=
        abs_lnSum_add_log_le (by linarith) (count + 1)
      _ ≤ |number| ^ (count + 1 + 1) * (1 - |number|)⁻¹ / (count + 1 : Nat) := by
        gcongr
        linarith
      _ = |number| ^ (count + 1) / (count + 1 : Nat) * (|number| * (1 - |number|)⁻¹) := by
        rw [pow_succ]
        ring
      _ ≤ 181 / 10 ^ 66 * 4 := mul_le_mul last ratio (by positivity) (by positivity)
  have parts : (sum.value : ℝ) - Real.log (1 - number) =
      (sum.value + lnSum number (count + 1)) -
        (lnSum number (count + 1) + Real.log (1 - number)) := by
    ring
  have terms : 0 ≤ |number| ^ (count + 1) := by positivity
  rw [parts]
  calc |_ - _|
    _ ≤ _ + _ := abs_sub _ _
    _ ≤ _ + _ := add_le_add series.sum tail
    _ ≤ 11 / 10 ^ 64 := by linarith

end

/-- How the series near one ends: its last term no longer counts, and its sum is accurate. -/
structure IsLnEnd (argument : Decimal) (last : LnSeries) (term sum : Decimal) : Prop where
  ends : last.term = .precise term
  small : |term.value| ≤ argument.maxError.value
  accurate : |(sum.value : ℝ) - Real.log argument.value| ≤ 11 / 10 ^ 64

/-- The first state of the series near one. -/
def lnStart (distance : Decimal) : LnSeries :=
  ⟨.precise distance, .precise distance, .precise distance, 1⟩

/-- The steps of the series near one. -/
def lnStep (argument : Decimal) : LnSeries → Calc (LnSeries ⊕ Number) :=
  lnSeriesStep (.precise (argument.sub .one)) (.precise argument.maxError)

/-- The logarithm near one repeats the steps of the series for precise numbers. -/
theorem lnNearOne_precise (argument : Decimal) :
    lnNearOne (.precise argument) = repeatUntil (lnStep argument) (lnStart (argument.sub .one)) :=
  rfl

/-- The series near one with a number of further terms to go at most. -/
def IsLnUnderWay (argument : Decimal) (left : Nat) (current : LnSeries) : Prop :=
  ∃ count, ∃ numerator term sum : Decimal,
    current = ⟨.precise numerator, .precise term, .precise sum, (count + 1 : Nat)⟩ ∧
      count + left = 680 ∧ IsLnSeries (1 - argument.value) count numerator term sum

section

variable {argument : Decimal} (lower : 11 / 20 ≤ argument.value) (upper : argument.value ≤ 9 / 5)

include lower upper

theorem bounds_nearOne : (11 / 20 : ℝ) ≤ argument.value ∧ (argument.value : ℝ) ≤ 9 / 5 := by
  have lowerReal := (Rat.cast_le (K := ℝ)).2 lower
  have upperReal := (Rat.cast_le (K := ℝ)).2 upper
  push_cast at lowerReal upperReal
  exact ⟨lowerReal, upperReal⟩

theorem abs_one_sub_value_le : |(1 : ℝ) - argument.value| ≤ 4 / 5 := by
  obtain ⟨lowerReal, upperReal⟩ := bounds_nearOne lower upper
  rw [abs_le]
  constructor <;> linarith

omit lower upper in
theorem value_sub_one (argument : Decimal) :
    ((argument.sub .one).value : ℝ) = -(1 - argument.value) := by
  rw [value_sub, value_one]
  push_cast
  ring

/-- A step of the series leads to another state under way, or to the end with its sum. -/
theorem completes_lnStep
    {left : Nat}
    {current : LnSeries}
    (underWay : IsLnUnderWay argument left current) :
    Completes sound (lnStep argument current)
      (Advances (IsLnUnderWay argument)
        (fun result => ∃ term sum, result = .precise sum ∧
          IsLnEnd argument current term sum) left) := by
  obtain ⟨count, numerator, term, sum, rfl, total, series⟩ := underWay
  have small := abs_one_sub_value_le lower upper
  obtain ⟨lowerReal, upperReal⟩ := bounds_nearOne lower upper
  have positive : 0 < argument.value := by linarith
  obtain ⟨counts, tiny⟩ := maxError_bounds positive.ne'
  rw [abs_of_pos (by linarith)] at counts tiny
  unfold lnStep lnSeriesStep
  simp only [Number.abs_precise, exceeds_precise, value_abs, lift_ok, pure_bind,
    decide_eq_true_iff]
  split
  next goesOn =>
    have beyond : (argument.maxError.value : ℝ) < |(term.value : ℝ)| := by
      rw [← Rat.cast_abs]
      exact Rat.cast_lt.2 goesOn
    have early := series.early small (by omega) (by linarith) beyond
    obtain ⟨nextNumerator, nextTerm, trimmed, divides, next⟩ :=
      series.next small (value_sub_one argument) (by omega)
    refine Completes.check.bind fun _ _ => ?_
    simp only [Number.mul_precise, Number.neg_precise, Number.kind_precise, Number.ofInt_precise,
      Number.add_precise, trimmed, divides, lift_ok, pure_bind]
    exact .pure ⟨left - 1, by omega, count + 1, _, _, _, rfl, by omega, next⟩
  next stops =>
    have within : |(term.value : ℝ)| ≤ argument.maxError.value := by
      rw [← Rat.cast_abs]
      exact Rat.cast_le.2 (not_lt.1 stops)
    have accurate := series.accurate small (by omega) (by linarith) within
    rw [sub_sub_cancel] at accurate
    exact .pure ⟨term, sum, rfl, rfl, not_lt.1 stops, accurate⟩

/-- The steps of the series lead to a last state, whose sum is the result. -/
theorem lnNearOne_trace :
    ∃ last term sum, IsLnEnd argument last term sum ∧
      Relation.ReflTransGen (LeadsTo sound (lnStep argument)) (lnStart (argument.sub .one)) last ∧
      Completes sound (lnStep argument last) (· = .inr (.precise sum)) ∧
      Completes sound (lnNearOne (.precise argument)) (· = .precise sum) := by
  have start := isLnSeries_start (abs_one_sub_value_le lower upper) (value_sub_one argument)
  rw [lnNearOne_precise]
  obtain ⟨last, _, ⟨term, sum, rfl, ends⟩, trace, stops, completes⟩ :=
    Completes.repeatUntil_trace (IsLnUnderWay argument) _
      (fun _ _ underWay => completes_lnStep lower upper underWay)
      ⟨0, _, _, _, rfl, Nat.zero_add 680, start⟩
  exact ⟨last, term, sum, ends, trace, stops, completes⟩

end

/-- Near one the series completes with a sum that is near the logarithm. -/
theorem completes_lnNearOne
    {argument : Decimal}
    (lower : 11 / 20 ≤ argument.value)
    (upper : argument.value ≤ 9 / 5) :
    Completes sound (lnNearOne (.precise argument)) fun result =>
      ∃ sum : Decimal, result = .precise sum ∧
        |(sum.value : ℝ) - Real.log argument.value| ≤ 11 / 10 ^ 64 := by
  obtain ⟨_, _, sum, ends, -, -, completes⟩ := lnNearOne_trace lower upper
  exact completes.mono fun _ same => ⟨sum, same, ends.accurate⟩

/-! ## The logarithm of two -/

/-- What the series of the logarithm of two has worked out when it has added so many terms.  Its
error is that of rounding its terms, which are smaller than a geometric series. -/
structure IsLnTwoSeries (count : Nat) (thirds quarters sum : Decimal) : Prop where
  thirds : Near (count * roundingError internalPrecision) ((1 / 3) ^ count) thirds.value
  quarters : Near (count * roundingError internalPrecision) ((1 / 4) ^ count) quarters.value
  sum : |(sum.value : ℝ) - (lnSum (1 / 3) count + lnSum (1 / 4) count)| ≤
    14 / 10 ^ 65 * (1 - (1 / 3) ^ count)

/-- Before the first term the invariant of the series holds with exact numbers. -/
theorem isLnTwoSeries_start : IsLnTwoSeries 0 .one .one .zero where
  thirds := by
    rw [Nat.cast_zero, zero_mul, pow_zero, value_one, Rat.cast_one]
    exact .refl le_rfl 1
  quarters := by
    rw [Nat.cast_zero, zero_mul, pow_zero, value_one, Rat.cast_one]
    exact .refl le_rfl 1
  sum := by
    simp [lnSum, value_zero]

/-- The error of two hundred quotients stays out of the digits that count. -/
theorem few_quotients {count : Nat} (few : count ≤ 200) :
    count * roundingError internalPrecision ≤ 1 / 10 ^ 60 := by
  have cast : (count : ℝ) ≤ 200 := by exact_mod_cast few
  rw [roundingError_internalPrecision]
  norm_num
  linarith

/-- A term is a power of a quotient times a reciprocal; the more the power has been rounded, the
smaller is the reciprocal. -/
theorem abs_mul_reciprocal_sub_le
    {count : Nat}
    (few : count + 2 ≤ 200)
    {power : ℝ}
    (nonneg : 0 ≤ power)
    {number reciprocal : Decimal}
    (near : Near ((count + 1 : Nat) * roundingError internalPrecision) power number.value)
    (nearReciprocal : Near (roundingError internalPrecision)
      (1 / (count + 1 : Nat)) reciprocal.value) :
    |(number.value * reciprocal.value : ℝ) - power / (count + 1 : Nat)| ≤
      134 / 10 ^ 66 * power := by
  have quotients := few_quotients few
  have error :
      (count + 1 : Nat) * roundingError internalPrecision + roundingError internalPrecision =
      (count + 2 : Nat) * roundingError internalPrecision :=
    mul_roundingError_add (count + 1) _
  have close := (near.mul nearReciprocal).abs_sub_le (by rw [error]; linarith)
  have addend : (0 : ℝ) ≤ power / (count + 1 : Nat) := by positivity
  have ratio : ((count + 2 : Nat) : ℝ) / (count + 1 : Nat) ≤ 2 := by
    rw [div_le_iff₀ (by positivity)]
    push_cast
    linarith [(Nat.cast_nonneg count : (0 : ℝ) ≤ count)]
  rw [mul_one_div, abs_of_nonneg addend, error, roundingError_internalPrecision] at close
  calc |(number.value * reciprocal.value : ℝ) - power / (count + 1 : Nat)|
    _ ≤ 10 / 9 * ((count + 2 : Nat) * (3 / 5 / 10 ^ 64)) * (power / (count + 1 : Nat)) := close
    _ = 10 / 9 * (3 / 5 / 10 ^ 64) * power * ((count + 2 : Nat) / (count + 1 : Nat)) := by ring
    _ ≤ 10 / 9 * (3 / 5 / 10 ^ 64) * power * 2 := by gcongr
    _ ≤ 134 / 10 ^ 66 * power := by linarith

/-- A step of the series finds the powers of a third and of a quarter that are next, and keeps
the invariant. -/
theorem IsLnTwoSeries.next
    {count : Nat}
    {thirds quarters sum : Decimal}
    (series : IsLnTwoSeries count thirds quarters sum)
    (few : count + 2 ≤ 200) :
    ∃ nextThirds nextQuarters reciprocal : Decimal,
      (Number.precise thirds).div (.precise (.ofInt 3)) = .ok (.precise nextThirds) ∧
      (Number.precise quarters).div (.precise (.ofInt 4)) = .ok (.precise nextQuarters) ∧
      (Number.precise .one).div (.precise (.ofInt (count + 1))) = .ok (.precise reciprocal) ∧
      IsLnTwoSeries (count + 1) nextThirds nextQuarters
        (sum.add ((nextThirds.add nextQuarters).mul reciprocal)) := by
  have third : ((1 : ℝ) / 3) ^ count / (3 : Nat) = (1 / 3) ^ (count + 1) := by
    rw [pow_succ, Nat.cast_ofNat, mul_one_div]
  have quarter : ((1 : ℝ) / 4) ^ count / (4 : Nat) = (1 / 4) ^ (count + 1) := by
    rw [pow_succ, Nat.cast_ofNat, mul_one_div]
  obtain ⟨nextThirds, divides, nearThirds⟩ := Number.near_div_natCast series.thirds three_ne_zero
  obtain ⟨nextQuarters, divideds, nearQuarters⟩ :=
    Number.near_div_natCast series.quarters four_ne_zero
  obtain ⟨reciprocal, inverts, nearReciprocal⟩ :=
    Number.near_div_natCast near_one count.succ_ne_zero
  rw [mul_roundingError_add, third] at nearThirds
  rw [mul_roundingError_add, quarter] at nearQuarters
  rw [zero_add] at nearReciprocal
  refine ⟨nextThirds, nextQuarters, reciprocal, divides, divideds, inverts,
    nearThirds, nearQuarters, ?_⟩
  have smaller : ((1 : ℝ) / 4) ^ (count + 1) ≤ (1 / 3) ^ (count + 1) :=
    pow_le_pow_left₀ (by positivity) (by norm_num) _
  have first := abs_mul_reciprocal_sub_le few (by positivity) nearThirds nearReciprocal
  have second := abs_mul_reciprocal_sub_le few (by positivity) nearQuarters nearReciprocal
  have parts : (sum.value + (nextThirds.value + nextQuarters.value) * reciprocal.value : ℝ) -
      (lnSum (1 / 3) (count + 1) + lnSum (1 / 4) (count + 1)) =
        (sum.value - (lnSum (1 / 3) count + lnSum (1 / 4) count)) +
          (nextThirds.value * reciprocal.value - (1 / 3) ^ (count + 1) / (count + 1 : Nat)) +
          (nextQuarters.value * reciprocal.value - (1 / 4) ^ (count + 1) / (count + 1 : Nat)) := by
    rw [lnSum_succ, lnSum_succ]
    ring
  rw [value_add, value_mul, value_add, Rat.cast_add, Rat.cast_mul, Rat.cast_add, parts]
  calc |_ + _ + _|
    _ ≤ _ + _ + _ := abs_add_three _ _ _
    _ ≤ _ + _ + _ := add_le_add (add_le_add series.sum first) second
    _ ≤ 14 / 10 ^ 65 * (1 - (1 / 3) ^ (count + 1)) := by
      have nonneg : (0 : ℝ) ≤ (1 / 3) ^ count := by positivity
      rw [pow_succ (1 / 3)] at smaller ⊢
      linarith

/-- While a power of a third still counts, fewer than 140 terms have been added. -/
theorem IsLnTwoSeries.early
    {count : Nat}
    {thirds quarters sum : Decimal}
    (series : IsLnTwoSeries count thirds quarters sum)
    (few : count ≤ 200)
    {bound : ℝ}
    (positive : 1 / 10 ^ 65 ≤ bound)
    (goesOn : bound < thirds.value) :
    count < 140 := by
  have quotients := few_quotients few
  by_contra late
  have power : ((1 : ℝ) / 3) ^ count ≤ 1 / 10 ^ 66 := by
    calc ((1 : ℝ) / 3) ^ count
      _ ≤ (1 / 3) ^ 140 := pow_le_pow_of_le_one (by norm_num) (by norm_num) (by omega)
      _ ≤ 1 / 10 ^ 66 := by norm_num
  have upper := series.thirds.le (by linarith) power (by positivity)
  nlinarith

/-- Once no power of a third counts any more, the sum is near the logarithm of two. -/
theorem IsLnTwoSeries.accurate
    {count : Nat}
    {thirds quarters sum : Decimal}
    (series : IsLnTwoSeries count thirds quarters sum)
    (few : count ≤ 200)
    {bound : ℝ}
    (tiny : bound ≤ 1 / 10 ^ 64)
    (stops : thirds.value ≤ bound) :
    |(sum.value : ℝ) - Real.log 2| ≤ 25 / 10 ^ 65 := by
  have quotients := few_quotients few
  have nonneg : (0 : ℝ) ≤ (1 / 3) ^ count := by positivity
  have last : ((1 : ℝ) / 3) ^ count ≤ 101 / 10 ^ 66 := by
    have lower := series.thirds.ge (by linarith) le_rfl nonneg
    nlinarith
  have logarithm : Real.log 2 = -Real.log (1 - 1 / 3) - Real.log (1 - 1 / 4) := by
    rw [← Real.log_inv, ← Real.log_div (by norm_num) (by norm_num)]
    norm_num
  have smaller : ((1 : ℝ) / 4) ^ count ≤ (1 / 3) ^ count :=
    pow_le_pow_left₀ (by positivity) (by norm_num) _
  have tail {number : ℝ} (positive : 0 < number) (small : number ≤ 1 / 3)
      (within : number ^ count ≤ (1 / 3) ^ count) :
      |lnSum number count + Real.log (1 - number)| ≤ (1 / 3) ^ count / 2 := by
    have below : 0 < 1 - number := by linarith
    have ratio : number * (1 - number)⁻¹ ≤ 1 / 2 := by
      rw [← div_eq_mul_inv, div_le_iff₀ below]
      linarith
    have bound := abs_lnSum_add_log_le (by rw [abs_of_pos positive]; linarith) count
    rw [abs_of_pos positive] at bound
    calc |lnSum number count + Real.log (1 - number)|
      _ ≤ number ^ (count + 1) * (1 - number)⁻¹ / (count + 1) := bound
      _ ≤ number ^ (count + 1) * (1 - number)⁻¹ :=
        div_le_self (by positivity) (by linarith [(Nat.cast_nonneg count : (0 : ℝ) ≤ count)])
      _ = number ^ count * (number * (1 - number)⁻¹) := by
        rw [pow_succ]
        ring
      _ ≤ (1 / 3) ^ count * (1 / 2) := mul_le_mul within ratio (by positivity) nonneg
      _ = (1 / 3) ^ count / 2 := mul_one_div _ _
  have first := abs_le.1 (tail (by norm_num) le_rfl le_rfl)
  have second := abs_le.1 (tail (show (0 : ℝ) < 1 / 4 by norm_num) (by norm_num) smaller)
  have terms := abs_le.1 series.sum
  rw [logarithm, abs_le]
  constructor <;> linarith

/-- The series of the logarithm of two completes with a sum that is near it. -/
theorem completes_lnTwoSeries :
    Completes sound (lnTwoSeries .precise) fun result =>
      ∃ sum : Decimal, result = .precise sum ∧ |(sum.value : ℝ) - Real.log 2| ≤ 25 / 10 ^ 65 := by
  have unit : Decimal.one.value ≠ 0 := by
    rw [value_one]
    exact one_ne_zero
  obtain ⟨counts, tiny⟩ := maxError_bounds unit
  rw [value_one, Rat.cast_one, abs_one] at counts tiny
  unfold lnTwoSeries
  simp only [Number.one_precise]
  refine .repeatUntil (fun left series => ∃ count, ∃ thirds quarters sum : Decimal,
    series = ⟨.precise thirds, .precise quarters, .precise sum, (count : Nat)⟩ ∧
      count + left = 140 ∧ IsLnTwoSeries count thirds quarters sum) ?_
    ⟨0, _, _, _, rfl, Nat.zero_add 140, isLnTwoSeries_start⟩
  rintro left _ ⟨count, thirds, quarters, sum, rfl, total, series⟩
  unfold lnTwoStep
  simp only [Number.maxError, exceeds_precise, lift_ok, pure_bind, decide_eq_true_iff]
  split
  next goesOn =>
    have early := series.early (by omega) counts (by exact_mod_cast goesOn)
    obtain ⟨nextThirds, nextQuarters, reciprocal, divides, divideds, inverts, next⟩ :=
      series.next (by omega)
    refine Completes.check.bind fun _ _ => ?_
    simp only [Number.one_precise, Number.ofInt_precise, divides, divideds,
      inverts, Number.add_precise,
      Number.mul_precise, lift_ok, pure_bind]
    exact .pure ⟨left - 1, by omega, count + 1, _, _, _, rfl, by omega, next⟩
  next stops =>
    exact .pure ⟨sum, rfl, series.accurate (by omega) tiny (by exact_mod_cast not_lt.1 stops)⟩

/-! ## The function -/

/-- Each halving contributes the error of one rounding to the logarithm. -/
theorem IsScaled.abs_log_sub_le
    {exact : ℝ}
    {count : Nat}
    {value : Decimal}
    {halvings : Int}
    (scaled : IsScaled exact count value halvings)
    (positive : 0 < exact) :
    |halvings * Real.log 2 + Real.log value.value - Real.log exact| ≤
      count * (3 / 5 / 10 ^ 64) := by
  have least : (0 : ℝ) < value.value := by
    have bound : 0 < value.value := by linarith [scaled.lower]
    exact_mod_cast bound
  have total := scaled.total
  have times : (halvings.toNat : ℝ) ≤ count := by
    exact_mod_cast (show halvings.toNat ≤ count by omega)
  have close := scaled.moved.near.abs_log_sub_le positive
  rw [Real.log_mul least.ne' (zpow_pos two_pos halvings).ne', Real.log_zpow, add_comm (Real.log _),
    roundingError_internalPrecision] at close
  exact close.trans (mul_le_mul_of_nonneg_right times (by positivity))

/-- The logarithm of an argument from that of two, the number of halvings and the sum of the
series. -/
def joined (two sum : Decimal) (halvings : Int) : Decimal :=
  if halvings = 0 then sum else (two.mul (.ofInt halvings)).add sum

/-- The logarithm completes with what its parts complete with. -/
theorem completes_ln_of_parts
    {argument value sum two : Decimal}
    {halvings : Int}
    (positive : 0 < argument.value)
    (scales : Completes Caches.AreTables
      (repeatUntil (scaleStep (.precise .one) (.precise (.ofInt 2)) (.precise ⟨1, 1⟩))
        (.precise argument, 0))
      (· = (.precise value, halvings)))
    (sums : Completes Caches.AreTables (lnNearOne (.precise value)) (· = .precise sum))
    (twos : Completes Caches.AreTables (lnTwo .precise) (· = .precise two)) :
    Completes Caches.AreTables (ln (.precise argument))
        (· = .precise (joined two sum halvings)) := by
  have parsed : Number.parse .precise "0.1" = .ok (.precise ⟨1, 1⟩) := by decide +kernel
  unfold ln
  rw [if_neg (by rw [Number.signum_nonpos_precise, not_le]; exact positive)]
  simp only [Number.kind_precise, Number.one_precise, Number.ofInt_precise,
    parsed, lift_ok, pure_bind]
  refine scales.bind ?_
  rintro _ rfl
  refine sums.bind ?_
  rintro _ rfl
  dsimp only [joined]
  split
  next => exact .pure rfl
  next =>
    refine twos.bind ?_
    rintro _ rfl
    simp only [Number.mul_precise, Number.add_precise, lift_ok, pure_bind]
    exact .pure rfl

/-- The parts of a logarithm are wrong by little, and so is the whole. -/
theorem IsScaled.abs_joined_sub_le
    {exact : ℝ}
    {count : Nat}
    {value sum two : Decimal}
    {halvings : Int}
    (scaled : IsScaled exact (count + 1) value halvings)
    (positive : 0 < exact)
    (closeSum : |(sum.value : ℝ) - Real.log value.value| ≤ 11 / 10 ^ 64)
    (closeTwo : |(two.value : ℝ) - Real.log 2| ≤ 25 / 10 ^ 65) :
    |((joined two sum halvings).value : ℝ) - Real.log exact| ≤ (4 * count + 15) / 10 ^ 64 := by
  have size : |(halvings : ℝ)| ≤ count + 1 := by
    rw [← Int.cast_abs, Int.abs_eq_natAbs]
    exact_mod_cast scaled.total
  have closeArgument := scaled.abs_log_sub_le positive
  rw [Nat.cast_succ] at closeArgument
  have nonneg : (0 : ℝ) ≤ count := count.cast_nonneg
  unfold joined
  split
  next none =>
    rw [none, Int.cast_zero, zero_mul, zero_add] at closeArgument
    have parts : (sum.value : ℝ) - Real.log exact =
        (sum.value - Real.log value.value) + (Real.log value.value - Real.log exact) := by
      ring
    rw [parts]
    calc |_ + _|
      _ ≤ _ + _ := abs_add_le _ _
      _ ≤ _ + _ := add_le_add closeSum closeArgument
      _ ≤ (4 * count + 15) / 10 ^ 64 := by linarith
  next some =>
    have closeTwos : |halvings * (two.value - Real.log 2)| ≤ (count + 1) * (25 / 10 ^ 65) := by
      rw [abs_mul]
      exact mul_le_mul size closeTwo (abs_nonneg _) (by positivity)
    have parts : (two.value * halvings + sum.value : ℝ) - Real.log exact =
        halvings * (two.value - Real.log 2) + (sum.value - Real.log value.value) +
          (halvings * Real.log 2 + Real.log value.value - Real.log exact) := by
      ring
    rw [value_add, value_mul, value_ofInt, Rat.cast_add, Rat.cast_mul, Rat.cast_intCast, parts]
    calc |_ + _ + _|
      _ ≤ _ + _ + _ := abs_add_three _ _ _
      _ ≤ _ + _ + _ := add_le_add (add_le_add closeTwos closeSum) closeArgument
      _ ≤ (4 * count + 15) / 10 ^ 64 := by linarith

/-- Of a positive number within so many powers of two the logarithm completes, and it is wrong by
no more than one rounding for each power and some for the series. -/
theorem completes_ln
    {argument : Decimal}
    {count : Nat}
    (lower : ((2 : ℝ) ^ count)⁻¹ ≤ argument.value)
    (upper : (argument.value : ℝ) ≤ 2 ^ count)
    (few : (count + 1) * roundingError internalPrecision ≤ 1 / 10) :
    Completes Caches.AreTables (ln (.precise argument)) fun result =>
      ∃ logarithm : Decimal, result = .precise logarithm ∧
        |(logarithm.value : ℝ) - Real.log argument.value| ≤ (4 * count + 15) / 10 ^ 64 := by
  have positive : (0 : ℝ) < argument.value := lower.trans_lt' (by positivity)
  obtain ⟨_, ⟨value, halvings, rfl, scaled⟩, scales⟩ := (completes_scaling lower upper few).settle
  obtain ⟨_, ⟨sum, rfl, closeSum⟩, sums⟩ := (completes_lnNearOne scaled.lower scaled.upper).settle
  obtain ⟨_, ⟨two, rfl, closeTwo⟩, twos⟩ := (Standard.completes_lnTwo completes_lnTwoSeries).settle
  refine (completes_ln_of_parts (by exact_mod_cast positive) scales sums twos).mono ?_
  rintro _ rfl
  exact ⟨_, rfl, scaled.abs_joined_sub_le positive closeSum closeTwo⟩

end Elementary
end Reckoner
