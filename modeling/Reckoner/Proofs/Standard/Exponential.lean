import Reckoner.Proofs.Standard.Completion
import Reckoner.Proofs.Standard.Precise

/-!
# The exponential of precise numbers

The argument is halved until the series converges fast, and the result is squared as often.  The
series stops when what it leaves out no longer counts; the error of its sum is then that of its
terms, each of them rounded once, and of what is left out.
-/

namespace Reckoner
namespace Elementary

open Run Decimal

variable {sound : Caches → Prop}

/-! ## Halving and squaring -/

/-- An argument after some halvings, with a number of further ones to go at most. -/
def IsHalved (exact : ℝ) (count left : Nat) (state : Number × Nat) : Prop :=
  ∃ (half : Decimal) (halvings : Nat), state = (.precise half, halvings) ∧
    halvings + left = count ∧
    Near (halvings * roundingError internalPrecision) (exact / 2 ^ halvings) half.value

/-- A reduced argument. -/
def IsReduced (exact : ℝ) (count : Nat) (state : Number × Nat) : Prop :=
  ∃ (half : Decimal) (halvings : Nat), state = (.precise half, halvings) ∧
    halvings ≤ count ∧ half.value ≤ 1 ∧
    Near (halvings * roundingError internalPrecision) (exact / 2 ^ halvings) half.value

/-- An argument above one is halved, and the number of halvings that are left becomes smaller.
-/
theorem completes_halveStep
    {exact : ℝ}
    {count left : Nat}
    (bounded : exact ≤ 99 / 100 * 2 ^ count)
    (few : count ≤ 1000)
    {state : Number × Nat}
    (halved : IsHalved exact count left state) :
    Completes sound (halveStep (.precise .one) (.precise (.ofInt 2)) state)
      (Advances (IsHalved exact count) (IsReduced exact count) left) := by
  obtain ⟨half, halvings, rfl, total, near⟩ := halved
  unfold halveStep
  simp only [exceeds_precise, lift_ok, pure_bind, value_one, decide_eq_true_iff]
  split
  next more =>
    have some : left ≠ 0 := by
      rintro rfl
      obtain rfl : halvings = count := by omega
      have cast : (halvings : ℝ) ≤ 1000 := by exact_mod_cast few
      have tiny : halvings * roundingError internalPrecision ≤ 1 / 1000 := by
        rw [roundingError_internalPrecision]
        norm_num
        linarith
      have below : exact / 2 ^ halvings ≤ 99 / 100 := (div_le_iff₀ (by positivity)).2 bounded
      have upper := near.le (by linarith) below (by norm_num)
      have above : (1 : ℝ) < half.value := by exact_mod_cast more
      linarith
    obtain ⟨quotient, divides, nearQuotient⟩ := Number.near_div_natCast near two_ne_zero
    refine Completes.check.bind fun _ _ => ?_
    rw [Nat.cast_two] at nearQuotient
    rw [show Number.div (.precise half) (.precise (.ofInt 2)) =
      .ok (.precise quotient) from divides]
    refine .pure ⟨left - 1, by omega, quotient, halvings + 1, rfl, by omega, ?_⟩
    rw [pow_succ, ← div_div]
    refine nearQuotient.mono (le_of_eq ?_)
    push_cast
    ring
  next small =>
    exact .pure ⟨half, halvings, rfl, by omega, not_lt.1 small, near⟩

/-- Each squaring doubles the relative error and adds that of one rounding. -/
theorem completes_squareTimes
    (times : Nat)
    {error exact : ℝ}
    {number : Decimal}
    (near : Near error exact number.value) :
    Completes sound (squareTimes times (.precise number)) fun result =>
      ∃ power : Decimal, result = some (.precise power) ∧
        Near (2 ^ times * (error + roundingError powerPrecision))
            (exact ^ 2 ^ times) power.value := by
  induction times generalizing error exact number with
  | zero =>
      refine .pure ⟨number, rfl, ?_⟩
      rw [pow_zero, pow_zero, one_mul, pow_one]
      exact near.mono (le_add_of_nonneg_right (roundingError_pos _).le)
  | succ times hypothesis =>
      obtain ⟨square, trimmed, nearSquare⟩ := Number.near_trimmed_mul near near
      unfold squareTimes
      refine Completes.check.bind fun _ _ => ?_
      simp only [Number.mul_precise, lift_ok, pure_bind, trimmed]
      refine (hypothesis nearSquare).mono ?_
      rintro _ ⟨power, rfl, nearPower⟩
      refine ⟨power, rfl, ?_⟩
      rw [← pow_two, ← pow_mul, ← pow_succ'] at nearPower
      refine nearPower.mono (le_of_eq ?_)
      ring

/-! ## The series -/

open Nat Finset

/-- The terms of the exponential series before an index. -/
noncomputable def expSum (argument : ℝ) (index : Nat) : ℝ :=
  ∑ power ∈ range index, argument ^ power / power !

/-- What the exponential series has worked out when it has added the terms up to an index.  The
sum is wrong by no more than its terms are, each of which but the first has been rounded. -/
structure IsExpSeries
    (argument : Decimal)
    (index : Nat)
    (sum numerator left right : Decimal) : Prop where
  sum : |(sum.value : ℝ) - expSum argument.value (index + 1)| ≤
    67 / 10 ^ 66 * (expSum argument.value (index + 1) - 1)
  numerator : Near (index * roundingError powerPrecision) (argument.value ^ (index + 1) : ℝ)
    numerator.value
  left : Near (index * roundingError powerPrecision)
    (argument.value ^ (index + 1) * 3 : ℝ) left.value
  right : Near (index * roundingError powerPrecision) (argument.maxError.value * (index + 1)! : ℝ)
    right.value

section

variable {argument : Decimal} (nonneg : 0 ≤ argument.value) (small : argument.value ≤ 1)

/-- Before the first term the invariant of the series holds with exact numbers. -/
theorem isExpSeries_start :
    IsExpSeries argument 0 .one argument (argument.mul (.ofInt 3)) argument.maxError where
  sum := by
    simp [expSum, value_one]
  numerator := by
    rw [pow_one, Nat.cast_zero, zero_mul]
    exact .refl le_rfl _
  left := by
    rw [pow_one, Nat.cast_zero, zero_mul, value_mul, value_ofInt, Rat.cast_mul]
    exact .refl le_rfl _
  right := by
    rw [Nat.cast_zero, zero_mul, Nat.factorial_one, Nat.cast_one, mul_one]
    exact .refl le_rfl _

include nonneg in
/-- One step adds a term that has been rounded once, and moves everything else to the next power. -/
theorem IsExpSeries.next
    {index : Nat}
    {sum numerator left right : Decimal}
    (series : IsExpSeries argument index sum numerator left right)
    (few : index ≤ 1000) :
    ∃ term nextNumerator nextLeft nextRight : Decimal,
      (Number.precise numerator).div (.precise (.ofInt ((index + 1)! : Nat))) =
      .ok (.precise term) ∧
      (Number.precise (numerator.mul argument)).trimmed = .precise nextNumerator ∧
      (Number.precise (left.mul argument)).trimmed = .precise nextLeft ∧
      (Number.precise (right.mul (.ofInt ((index + 1 : Nat) + 1)))).trimmed = .precise nextRight ∧
      IsExpSeries argument (index + 1) (sum.add term) nextNumerator nextLeft nextRight := by
  have exact : Near 0 (argument.value : ℝ) argument.value := .refl le_rfl _
  have integer : Near 0 ((index + 1 + 1 : Nat) : ℝ) (Decimal.ofInt ((index + 1 : Nat) + 1)).value :=
    near_ofInt_natCast (index + 1 + 1)
  obtain ⟨term, divides, nearTerm⟩ :=
    Number.near_div_natCast series.numerator (index + 1).factorial_ne_zero
  obtain ⟨numerator', trimmed, nearNumerator⟩ := Number.near_trimmed_mul series.numerator exact
  obtain ⟨left', trimmedLeft, nearLeft⟩ := Number.near_trimmed_mul series.left exact
  obtain ⟨right', trimmedRight, nearRight⟩ := Number.near_trimmed_mul series.right integer
  rw [add_zero, mul_roundingError_add] at nearNumerator nearLeft nearRight
  refine ⟨term, numerator', left', right', divides, trimmed, trimmedLeft,
    trimmedRight, ?_, ?_, ?_, ?_⟩
  · have addend : (0 : ℝ) ≤ argument.value ^ (index + 1) / (index + 1)! := by positivity
    have close := Number.abs_term_sub_le few nearTerm
    rw [abs_of_nonneg addend] at close
    have last : expSum argument.value (index + 1 + 1) =
        expSum argument.value (index + 1) + argument.value ^ (index + 1) / (index + 1)! :=
      sum_range_succ _ _
    have parts : ((sum.value + term.value : ℚ) : ℝ) -
        (expSum argument.value (index + 1) + argument.value ^ (index + 1) / (index + 1)!) =
          (sum.value - expSum argument.value (index + 1)) +
            (term.value - argument.value ^ (index + 1) / (index + 1)!) := by
      push_cast
      ring
    rw [value_add, last, parts]
    calc |_ + _|
      _ ≤ _ + _ := abs_add_le _ _
      _ ≤ _ + _ := add_le_add series.sum close
      _ = _ := by ring
  · rw [pow_succ]
    exact nearNumerator
  · rw [pow_succ, mul_right_comm]
    exact nearLeft
  · rw [Nat.factorial_succ (index + 1), Nat.cast_mul, mul_comm ((index + 1 + 1 : Nat) : ℝ),
      ← mul_assoc]
    exact nearRight

include nonneg small in
/-- The series does not go on beyond the index at which the factorial is large enough. -/
theorem IsExpSeries.early
    {index : Nat}
    {sum numerator left right : Decimal}
    (series : IsExpSeries argument index sum numerator left right)
    (few : index ≤ 1000)
    (goesOn : right.value < left.value) :
    index < 52 := by
  have roundings := Number.few_roundings few
  have bounds : (right.value : ℝ) < left.value := by exact_mod_cast goesOn
  have positive : (0 : ℝ) < argument.maxError.value := by exact_mod_cast value_maxError_pos argument
  have exact : (0 : ℝ) ≤ argument.value := by exact_mod_cast nonneg
  have unit : (argument.value : ℝ) ≤ 1 := by exact_mod_cast small
  have power : (argument.value : ℝ) ^ (index + 1) * 3 ≤ argument.value * 3 :=
    mul_le_mul_of_nonneg_right (pow_le_of_le_one exact unit index.succ_ne_zero) (by norm_num)
  by_contra late
  have factorial : (10 : ℝ) ^ 66 ≤ (index + 1)! := by
    have least : 10 ^ 66 ≤ 53! := by decide +kernel
    exact_mod_cast least.trans (Nat.factorial_le (by omega))
  have upper := series.left.le (by linarith) power (by positivity)
  have lower := series.right.ge (by linarith) (mul_le_mul_of_nonneg_left factorial positive.le)
    (by positivity)
  have counts : (argument.value : ℝ) * 10 ≤ argument.maxError.value * 10 ^ 66 := by
    have least := abs_div_le_maxError argument
    rw [abs_of_nonneg exact, div_le_iff₀ (by positivity)] at least
    linarith
  nlinarith

include nonneg small in
/-- When the series stops, what it leaves out no longer counts. -/
theorem IsExpSeries.accurate
    {index : Nat}
    {sum numerator left right : Decimal}
    (series : IsExpSeries argument (index + 1) sum numerator left right)
    (few : index + 1 ≤ 1000)
    (stops : left.value ≤ right.value) :
    |(sum.value : ℝ) - Real.exp argument.value| ≤ 166 / 10 ^ 66 := by
  have roundings := Number.few_roundings few
  have bounds : (left.value : ℝ) ≤ right.value := by exact_mod_cast stops
  have exact : (0 : ℝ) ≤ argument.value := by exact_mod_cast nonneg
  have unit : (argument.value : ℝ) ≤ 1 := by exact_mod_cast small
  have below : expSum argument.value (index + 1 + 1) ≤ Real.exp argument.value :=
    Real.sum_le_exp_of_nonneg exact (index + 1 + 1)
  -- the last term bounds what is missing, and the bound of the series bounds the last term
  have above : Real.exp argument.value ≤ expSum argument.value (index + 1 + 1) +
      argument.value ^ (index + 1 + 1) / (index + 1 + 1)! * (3 / 2) := by
    have count : (2 : ℝ) ≤ (index + 1 + 1 : Nat) := by exact_mod_cast Nat.le_add_left 2 index
    have ratio : ((index + 1 + 1 : Nat) + 1 : ℝ) / (index + 1 + 1 : Nat) ≤ 3 / 2 := by
      rw [div_le_iff₀ (by linarith)]
      linarith
    refine (Real.exp_bound' exact unit (index + 1).succ_pos).trans (add_le_add_right ?_ _)
    rw [mul_div_mul_comm]
    exact mul_le_mul_of_nonneg_left ratio (by positivity)
  have rest : (argument.value : ℝ) ^ (index + 1 + 1) / (index + 1 + 1)! * 3 ≤ 101 / 10 ^ 66 := by
    rcases nonneg.eq_or_lt with zero | some
    · rw [← zero, Rat.cast_zero, zero_pow (index + 1).succ_ne_zero, zero_div, zero_mul]
      positivity
    · have counts := (maxError_bounds some.ne').2
      rw [abs_of_nonneg exact] at counts
      have positive : (0 : ℝ) ≤ argument.maxError.value := by
        exact_mod_cast (value_maxError_pos argument).le
      have factorial : (0 : ℝ) < (index + 1 + 1)! := by positivity
      have bound : (0 : ℝ) ≤ argument.maxError.value * (index + 1 + 1)! :=
        mul_nonneg positive factorial.le
      have power : (0 : ℝ) ≤ argument.value ^ (index + 1 + 1) * 3 := by positivity
      have lower : 999 / 1000 * (argument.value ^ (index + 1 + 1) * 3 : ℝ) ≤ left.value :=
        (mul_le_mul_of_nonneg_right (by linarith) power).trans
          (series.left.ge (by linarith) le_rfl power)
      have upper : (right.value : ℝ) ≤
          1001 / 1000 * (argument.maxError.value * (index + 1 + 1)!) :=
        (series.right.le (by linarith) le_rfl bound).trans
          (mul_le_mul_of_nonneg_right (by linarith) bound)
      have weight : (argument.maxError.value : ℝ) * (index + 1 + 1)! ≤
          1 / 10 ^ 64 * (index + 1 + 1)! :=
        mul_le_mul_of_nonneg_right (counts.trans (by gcongr)) factorial.le
      rw [div_mul_eq_mul_div, div_le_iff₀ factorial]
      linarith
  have total : Real.exp argument.value ≤ 2.7182818286 :=
    (Real.exp_le_exp.2 unit).trans Real.exp_one_lt_d9.le
  have terms := abs_le.1 series.sum
  rw [abs_le]
  constructor <;> linarith

include nonneg small in
/-- The series completes with a sum that is near the exponential of the argument. -/
theorem completes_expSeries :
    Completes Caches.AreTables (expSeries (.precise argument)) fun result =>
      ∃ sum : Decimal, result = .precise sum ∧
        |(sum.value : ℝ) - Real.exp argument.value| ≤ 166 / 10 ^ 66 := by
  unfold expSeries
  simp only [Number.kind_precise, Number.ofInt_precise, Number.one_precise,
    Number.mul_precise, lift_ok,
    pure_bind]
  refine .repeatUntil (fun remaining series => ∃ index, ∃ sum numerator left right : Decimal,
    series = ⟨.precise sum, .precise numerator, .precise left, .precise right, index⟩ ∧
      index + remaining = 52 ∧ IsExpSeries argument index sum numerator left right) ?_
    ⟨0, _, _, _, _, rfl, Nat.zero_add 52, isExpSeries_start⟩
  rintro remaining _ ⟨index, sum, numerator, left, right, rfl, total, series⟩
  unfold expSeriesStep
  refine Completes.check.bind fun _ _ => (Standard.completes_factorial _).bind ?_
  rintro _ rfl
  obtain ⟨term, nextNumerator, nextLeft, nextRight, divides, trimmed, trimmedLeft, trimmedRight,
    next⟩ := series.next nonneg (by omega)
  simp only [Number.kind_precise, divides, Number.add_precise, Number.mul_precise,
    Number.ofInt_precise,
    trimmed, trimmedLeft, trimmedRight, lift_ok, pure_bind, exceeds_precise, decide_eq_true_iff]
  split
  next goesOn =>
    have early := next.early nonneg small (by omega) goesOn
    exact .pure ⟨remaining - 1, by omega, index + 1, _, _, _, _, rfl, by omega, next⟩
  next stops =>
    exact .pure ⟨_, rfl, next.accurate nonneg small (by omega) (not_lt.1 stops)⟩

include nonneg small in
/-- Behind the index at which the factorial is large enough, hardly anything is missing. -/
theorem abs_exp_sub_expSum_le {count : Nat} (many : 53 ≤ count) :
    |Real.exp argument.value - expSum argument.value count| ≤ 2 / 10 ^ 66 := by
  have exact : (0 : ℝ) ≤ argument.value := by exact_mod_cast nonneg
  have unit : (argument.value : ℝ) ≤ 1 := by exact_mod_cast small
  have below := Real.sum_le_exp_of_nonneg exact count
  have above := Real.exp_bound' exact unit (show 0 < count by omega)
  have factorial : (10 : ℝ) ^ 66 ≤ count ! := by
    have least : 10 ^ 66 ≤ 53! := by decide +kernel
    exact_mod_cast least.trans (Nat.factorial_le many)
  have ratio : (count + 1 : ℝ) / count ≤ 2 := by
    have cast : (53 : ℝ) ≤ count := by exact_mod_cast many
    rw [div_le_iff₀ (by linarith)]
    linarith
  have tail : (argument.value : ℝ) ^ count * (count + 1) / (count ! * count) ≤ 2 / 10 ^ 66 := by
    calc (argument.value : ℝ) ^ count * (count + 1) / (count ! * count)
      _ = argument.value ^ count / count ! * ((count + 1) / count) := mul_div_mul_comm _ _ _ _
      _ ≤ 1 / 10 ^ 66 * 2 := by
        gcongr
        exact pow_le_one₀ exact unit
      _ = 2 / 10 ^ 66 := by ring
  rw [expSum, abs_of_nonneg (by linarith)]
  linarith

include nonneg small in
/-- The exponential series of a number between zero and one always comes to an end.  The errors
of its terms and what it leaves out are less than two units in the 64th place together, against
the exponential as well as against every sum of enough terms that is worked out exactly. -/
theorem expSeries_accurate :
    ∃ sum : Decimal,
      Standard.Gives (expSeries (.precise argument)) (.precise sum) ∧
      |(sum.value : ℝ) - Real.exp argument.value| ≤ 2 * 10 ^ (-64 : Int) ∧
      ∀ last ≥ 52,
        |sum.value - ∑ power ∈ range (last + 1), argument.value ^ power / power !| ≤
          2 * 10 ^ (-64 : Int) := by
  obtain ⟨_, ⟨sum, rfl, close⟩, gives⟩ :=
    Standard.gives_of_completes (completes_expSeries nonneg small)
  refine ⟨sum, gives, close.trans (by norm_num), fun last many => ?_⟩
  have partialSum : ((∑ power ∈ range (last + 1), argument.value ^ power / power ! : ℚ) : ℝ) =
      expSum argument.value (last + 1) := by
    rw [expSum]
    push_cast
    rfl
  have rest := abs_exp_sub_expSum_le nonneg small (show 53 ≤ last + 1 by omega)
  refine (Rat.cast_le (K := ℝ)).1 ?_
  rw [Rat.cast_abs, Rat.cast_sub, partialSum]
  calc |(sum.value : ℝ) - expSum argument.value (last + 1)|
    _ ≤ |(sum.value : ℝ) - Real.exp argument.value| +
        |Real.exp argument.value - expSum argument.value (last + 1)| := abs_sub_le _ _ _
    _ ≤ 166 / 10 ^ 66 + 2 / 10 ^ 66 := add_le_add close rest
    _ ≤ ((2 * 10 ^ (-64 : Int) : ℚ) : ℝ) := by norm_num

end

/-- The greatest argument that the series is meant for, with zeros that it does not need. -/
theorem expSeries_accurate_one :
    0 ≤ (⟨1000, 3⟩ : Decimal).value ∧ (⟨1000, 3⟩ : Decimal).value ≤ 1 ∧
      ∃ sum : Decimal,
        Standard.Gives (expSeries (.precise ⟨1000, 3⟩)) (.precise sum) ∧
        |(sum.value : ℝ) - Real.exp 1| ≤ 2 * 10 ^ (-64 : Int) ∧
        ∀ last ≥ 52, |sum.value - ∑ power ∈ range (last + 1), 1 / (power ! : ℚ)| ≤
          2 * 10 ^ (-64 : Int) := by
  have value : (⟨1000, 3⟩ : Decimal).value = 1 := by
    norm_num [Decimal.value]
  have nonneg : 0 ≤ (⟨1000, 3⟩ : Decimal).value := value ▸ zero_le_one
  have small : (⟨1000, 3⟩ : Decimal).value ≤ 1 := value.le
  obtain ⟨sum, gives, close, sums⟩ := expSeries_accurate nonneg small
  simp only [value, Rat.cast_one, one_pow] at close sums
  exact ⟨nonneg, small, sum, gives, close, sums⟩

/-! ## The function -/

/-- Halving loses less than the series does, and squaring doubles the error as often as it is
done. -/
theorem completes_expNonNegative
    {argument : Decimal}
    (nonneg : 0 ≤ argument.value)
    {count : Nat}
    (bounded : (argument.value : ℝ) ≤ 99 / 100 * 2 ^ count)
    (few : count ≤ 1000) :
    Completes Caches.AreTables (expNonNegative (.precise argument)) fun result =>
      ∃ power : Decimal, result = some (.precise power) ∧
        Near (2 ^ count * (count + 3) / 10 ^ 64) (Real.exp argument.value) power.value := by
  have exact : (0 : ℝ) ≤ argument.value := by exact_mod_cast nonneg
  unfold expNonNegative
  refine (Completes.repeatUntil (IsHalved argument.value count)
    (fun _ _ => completes_halveStep bounded few)
    ⟨argument, 0, rfl, Nat.zero_add count, ?_⟩).bind ?_
  · rw [Nat.cast_zero, zero_mul, pow_zero, div_one]
    exact .refl le_rfl _
  rintro _ ⟨half, halvings, rfl, within, small, near⟩
  have reduced : (0 : ℝ) ≤ half.value := near.nonneg (by positivity)
  refine (completes_expSeries (by exact_mod_cast reduced) small).bind ?_
  rintro _ ⟨sum, rfl, close⟩
  have cast : (halvings : ℝ) ≤ count := by exact_mod_cast within
  have several : (count : ℝ) ≤ 1000 := by exact_mod_cast few
  have unit := roundingError_internalPrecision
  have nearHalf : Near (halvings / 10 ^ 64) (Real.exp (argument.value / 2 ^ halvings))
      (Real.exp half.value) := by
    have close := near.symm.abs_sub_le (by rw [unit]; linarith)
    have size : |(half.value : ℝ)| ≤ 1 := by
      rw [abs_of_nonneg reduced]
      exact_mod_cast small
    refine .exp ?_
    rw [abs_sub_comm]
    refine (close.trans (mul_le_of_le_one_right (by rw [unit]; positivity) size)).trans ?_
    rw [unit]
    linarith
  have nearSum : Near (halvings / 10 ^ 64 + 10 / 9 * (2 / 10 ^ 64))
      (Real.exp (argument.value / 2 ^ halvings)) sum.value := by
    refine nearHalf.trans (.of_abs_sub_le (by positivity) (by norm_num) (close.trans ?_))
    rw [abs_of_pos (Real.exp_pos _)]
    exact (show (166 / 10 ^ 66 : ℝ) ≤ 2 / 10 ^ 64 by norm_num).trans
      (le_mul_of_one_le_right (by positivity) (Real.one_le_exp reduced))
  refine (completes_squareTimes halvings nearSum).mono ?_
  rintro _ ⟨power, rfl, nearPower⟩
  refine ⟨power, rfl, ?_⟩
  have squares : ((2 ^ halvings : Nat) : ℝ) * (argument.value / 2 ^ halvings) = argument.value := by
    rw [Nat.cast_pow, Nat.cast_ofNat, mul_div_cancel₀]
    positivity
  rw [← Real.exp_nat_mul, squares] at nearPower
  refine nearPower.mono ?_
  rw [mul_div_assoc]
  refine mul_le_mul (pow_le_pow_right₀ one_le_two within) ?_ ?_ (by positivity)
  · rw [roundingError_powerPrecision]
    norm_num
    linarith
  · rw [roundingError_powerPrecision]
    positivity

/-- The exponential of a negative number is the reciprocal of that of its size. -/
theorem completes_exp
    {argument : Decimal}
    {count : Nat}
    (bounded : |(argument.value : ℝ)| ≤ 99 / 100 * 2 ^ count)
    (few : count ≤ 1000) :
    Completes Caches.AreTables (exp (.precise argument)) fun result =>
      ∃ power : Decimal, result = .precise power ∧
        Near (2 ^ count * (count + 4) / 10 ^ 64) (Real.exp argument.value) power.value := by
  unfold exp
  split
  next negative =>
    have below : argument.value < 0 := signum_neg_iff.1 negative
    have opposite : (argument.neg.value : ℝ) = -argument.value := by
      rw [value_neg, Rat.cast_neg]
    have size : (argument.neg.value : ℝ) ≤ 99 / 100 * 2 ^ count := by
      rw [opposite]
      exact (neg_le_abs _).trans bounded
    have nonneg : 0 ≤ argument.neg.value := by
      rw [value_neg]
      exact (neg_pos.2 below).le
    refine (completes_expNonNegative nonneg size few).bind ?_
    rintro _ ⟨large, rfl, near⟩
    obtain ⟨quotient, divides, nearQuotient⟩ := Number.near_div near_one near (Real.exp_ne_zero _)
    simp only [Number.kind_precise, Number.one_precise, divides, lift_ok]
    refine .pure ⟨quotient, rfl, ?_⟩
    rw [opposite, Real.exp_neg, one_div, inv_inv] at nearQuotient
    refine nearQuotient.mono ?_
    have atLeastOne : (1 : ℝ) ≤ 2 ^ count := one_le_pow₀ one_le_two
    rw [roundingError_internalPrecision, zero_add, mul_div_assoc, mul_div_assoc]
    norm_num
    linarith
  next nonneg =>
    have positive : 0 ≤ argument.value := not_lt.1 (mt signum_neg_iff.2 nonneg)
    refine (completes_expNonNegative positive ((le_abs_self _).trans bounded) few).bind ?_
    rintro _ ⟨power, rfl, near⟩
    refine .pure ⟨power, rfl, near.mono ?_⟩
    gcongr
    norm_num

end Elementary
end Reckoner
