import Reckoner.Proofs.Standard.Arctangent
import Reckoner.Proofs.Standard.Magnitudes
import Reckoner.Proofs.Standard.Roots

/-!
# The arcsine of precise numbers

From four fifths on a number is led to the leg that completes it to a right triangle.  However
close to one the number is, its digits say how close at most, so that the root that gives the leg
is worked out with enough of its digits right to be below four fifths.  So the series is reached
after one reduction at the latest, and below four fifths its terms fall as those of a geometric
series do.
-/

namespace Reckoner
namespace Trigonometry

open Elementary Run Decimal Standard

variable {sound : Caches → Prop}

/-! ## The series -/

/-- The coefficient of a term of the arcsine series: odd numbers over the even ones that follow
them. -/
noncomputable def arcsineWeight : Nat → ℝ
  | 0 => 1
  | count + 1 => (2 * count + 1 : Nat) * arcsineWeight count / (2 * count + 2 : Nat)

/-- The coefficients of the series lie between zero and one. -/
theorem arcsineWeight_mem_unit (count : Nat) :
    0 ≤ arcsineWeight count ∧ arcsineWeight count ≤ 1 := by
  induction count with
  | zero => exact ⟨zero_le_one, le_rfl⟩
  | succ count hypothesis =>
      obtain ⟨nonneg, small⟩ := hypothesis
      have fraction : ((2 * count + 1 : Nat) : ℝ) / (2 * count + 2 : Nat) ≤ 1 :=
        div_le_one_of_le₀ (by exact_mod_cast (2 * count + 1).le_succ) (Nat.cast_nonneg _)
      rw [arcsineWeight, mul_comm, mul_div_assoc]
      exact ⟨mul_nonneg nonneg (by positivity), mul_le_one₀ small (by positivity) fraction⟩

/-- What the arcsine series of a number has worked out when it has added so many terms behind the
first one, but for the errors of rounding. -/
structure IsArcsineSeries (number : ℚ) (count : Nat) (term power coefficient : Decimal) : Prop where
  power : Near (count * roundingError powerPrecision) (number * (number ^ 2) ^ count) power.value
  coefficient : Near (count * roundingError internalPrecision)
    (arcsineWeight count) coefficient.value
  term : Near (count * roundingError powerPrecision + count * roundingError internalPrecision +
      roundingError internalPrecision)
    (number * (number ^ 2) ^ count * arcsineWeight count / (2 * count + 1 : Nat)) term.value

/-- Before the first term the invariant of the series holds with exact numbers. -/
theorem isArcsineSeries_start (argument : Decimal) :
    IsArcsineSeries argument.value 0 argument argument .one where
  power := by
    rw [pow_zero, mul_one]
    exact .refl (by simp) _
  coefficient := by
    rw [value_one, Rat.cast_one, arcsineWeight]
    exact .refl (by simp) _
  term := by
    rw [pow_zero, mul_one, arcsineWeight, mul_one, mul_zero, Nat.cast_one, div_one]
    exact .refl (by simpa using (roundingError_pos internalPrecision).le) _

section

variable {number : ℚ} {count : Nat} {term power coefficient : Decimal}
  (series : IsArcsineSeries number count term power coefficient)

include series

/-- A step of the series finds the next term, and keeps the invariant. -/
theorem IsArcsineSeries.next
    {multiplier : Decimal}
    (square : multiplier.value = number ^ 2) :
    ∃ nextPower nextCoefficient nextTerm : Decimal,
      (Number.precise (power.mul multiplier)).trimmed = .precise nextPower ∧
      (Number.precise (coefficient.mul (.ofInt (2 * count + 1 : Nat)))).div
        (.precise (.ofInt (2 * count + 2 : Nat))) = .ok (.precise nextCoefficient) ∧
      (Number.precise (nextPower.mul nextCoefficient)).div
        (.precise (.ofInt (2 * (count + 1) + 1 : Nat))) = .ok (.precise nextTerm) ∧
      IsArcsineSeries number (count + 1) nextTerm nextPower nextCoefficient := by
  have exact : Near 0 ((number : ℝ) ^ 2) multiplier.value := by
    rw [square]
    push_cast
    exact .refl le_rfl _
  obtain ⟨nextPower, trimmed, nearPower⟩ := Number.near_trimmed_mul series.power exact
  rw [add_zero, mul_roundingError_add, mul_assoc, ← pow_succ] at nearPower
  have odd :
      Near (count * roundingError internalPrecision) ((2 * count + 1 : Nat) * arcsineWeight count)
      (coefficient.mul (.ofInt (2 * count + 1 : Nat))).value := by
    rw [value_mul, value_ofInt, Rat.cast_mul, Int.cast_natCast, Rat.cast_natCast,
      mul_comm (coefficient.value : ℝ)]
    exact series.coefficient.mul_left _
  obtain ⟨nextCoefficient, divides, nearCoefficient⟩ :=
    Number.near_div_natCast odd (2 * count + 1).succ_ne_zero
  rw [mul_roundingError_add] at nearCoefficient
  have product := nearPower.mul nearCoefficient
  rw [← Rat.cast_mul, ← value_mul] at product
  obtain ⟨nextTerm, dividesTerm, nearTerm⟩ :=
    Number.near_div_natCast product (2 * (count + 1)).succ_ne_zero
  exact ⟨nextPower, nextCoefficient, nextTerm, trimmed, divides, dividesTerm,
    nearPower, nearCoefficient,
    nearTerm⟩

/-- A series that goes on has not added many terms yet. -/
theorem IsArcsineSeries.early
    {bound : ℝ}
    (small : |(number : ℝ)| < 4 / 5)
    (few : count ≤ 1000)
    (counts : |(number : ℝ)| / 10 ^ 66 ≤ bound)
    (goesOn : bound < |(term.value : ℝ)|) :
    count < 400 := by
  by_contra late
  have powers := Number.few_roundings few
  have unit := roundingError_internalPrecision
  have cast : (count : ℝ) ≤ 1000 := by exact_mod_cast few
  have square : (number : ℝ) ^ 2 ≤ 64 / 100 := by
    rw [← sq_abs]
    nlinarith [abs_nonneg (number : ℝ)]
  obtain ⟨nonneg, most⟩ := arcsineWeight_mem_unit count
  have size : |(number : ℝ) * (number ^ 2) ^ count * arcsineWeight count / (2 * count + 1 : Nat)| ≤
      |(number : ℝ)| * (2 / 10 ^ 67) := by
    rw [abs_div, abs_mul, abs_mul, abs_pow, abs_pow, sq_abs, abs_of_nonneg nonneg, Nat.abs_cast]
    calc |(number : ℝ)| * (number ^ 2) ^ count * arcsineWeight count / (2 * count + 1 : Nat)
      _ ≤ |(number : ℝ)| * (number ^ 2) ^ count * arcsineWeight count :=
        div_le_self (by positivity) (by exact_mod_cast (2 * count).succ_pos)
      _ ≤ |(number : ℝ)| * (number ^ 2) ^ count := mul_le_of_le_one_right (by positivity) most
      _ ≤ |(number : ℝ)| * (64 / 100) ^ count := by gcongr
      _ ≤ |(number : ℝ)| * (64 / 100) ^ 400 :=
        mul_le_mul_of_nonneg_left (pow_le_pow_of_le_one (by norm_num) (by norm_num) (by omega))
          (abs_nonneg _)
      _ = |(number : ℝ)| * ((64 / 100) ^ 40) ^ 10 := by rw [← pow_mul]
      _ ≤ |(number : ℝ)| * (2 / 10 ^ 8) ^ 10 := by
        gcongr
        norm_num
      _ ≤ |(number : ℝ)| * (2 / 10 ^ 67) := mul_le_mul_of_nonneg_left (by norm_num) (abs_nonneg _)
  have roundings : count * roundingError internalPrecision ≤ 1 / 10 ^ 60 := by
    rw [unit]
    linarith
  have upper := series.term.abs.le (by rw [unit]; linarith) size (by positivity)
  rw [unit] at upper
  have least := abs_nonneg (number : ℝ)
  nlinarith

end

/-- The series ends for every number below four fifths in size. -/
theorem completes_arcsineSeries
    {argument : Decimal}
    (small : |argument.value| < 4 / 5) :
    Completes sound (arcsineSeries (.precise argument)) fun result =>
      ∃ sum : Decimal, result = .precise sum := by
  have square : (argument.mul argument).value = argument.value ^ 2 := by
    rw [value_mul, sq]
  have size : |(argument.value : ℝ)| < 4 / 5 := by
    have cast := (Rat.cast_lt (K := ℝ)).2 small
    push_cast at cast
    exact cast
  have counts : |(argument.value : ℝ)| / 10 ^ 66 ≤
      (argument.maxError.mul (Decimal.one.sub (argument.mul argument))).value := by
    have error := abs_div_le_maxError argument
    have least := abs_nonneg (argument.value : ℝ)
    have rest : (argument.value : ℝ) ^ 2 ≤ 64 / 100 := by
      rw [← sq_abs]
      nlinarith
    rw [value_mul, value_sub, value_one, square]
    push_cast
    nlinarith
  unfold arcsineSeries
  simp only [Number.mul_precise, Number.sub_precise, Number.maxError_precise, Number.kind_precise,
    Number.one_precise, lift_ok, pure_bind]
  refine .repeatUntil (fun left series => ∃ count, ∃ term sum power coefficient : Decimal,
    series = ⟨.precise term, .precise sum, .precise power, .precise coefficient,
    (2 * count + 1 : Nat)⟩ ∧
      count + left = 400 ∧ IsArcsineSeries argument.value count term power coefficient) ?_
    ⟨0, _, _, _, _, rfl, Nat.zero_add 400, isArcsineSeries_start argument⟩
  rintro left _ ⟨count, term, sum, power, coefficient, rfl, total, series⟩
  unfold arcsineStep
  simp only [Number.abs_precise, exceeds_precise, value_abs, lift_ok, pure_bind, decide_eq_true_iff]
  split
  next goesOn =>
    have beyond : ((argument.maxError.mul (Decimal.one.sub (argument.mul argument))).value : ℝ) <
        |(term.value : ℝ)| := by
      rw [← Rat.cast_abs]
      exact Rat.cast_lt.2 goesOn
    have early := series.early size (by omega) counts beyond
    obtain ⟨nextPower, nextCoefficient, nextTerm, trimmed, divides, dividesTerm, next⟩ :=
      series.next square
    have further : ((2 * count + 1 : Nat) + 2 : Int) = (2 * (count + 1) + 1 : Nat) := by omega
    have odd : ((2 * (count + 1) + 1 : Nat) - 2 : Int) = (2 * count + 1 : Nat) := by omega
    have even : ((2 * (count + 1) + 1 : Nat) - 1 : Int) = (2 * count + 2 : Nat) := by omega
    refine Completes.check.bind fun _ _ => ?_
    simp only [Number.mul_precise, Number.kind_precise, Number.ofInt_precise, Number.add_precise,
      further, odd, even, trimmed, divides, dividesTerm, lift_ok, pure_bind]
    exact .pure ⟨left - 1, by omega, count + 1, _, _, _, _, rfl, by omega, next⟩
  next => exact .pure ⟨sum, rfl⟩

/-! ## The complementary leg -/

/-- The digits of a number near one bound how close to one it is. -/
theorem one_sub_square_ge
    {number : Decimal}
    (large : 4 / 5 ≤ |number.value|)
    (positive : 0 < 1 - number.value ^ 2) :
    10 ^ (-(2 * number.digits : Nat) : Int) ≤ 1 - number.value ^ 2 := by
  have nonzero : number.value ≠ 0 := abs_pos.1 (by linarith)
  have places : number.scale ≤ number.digits := by
    have tenth : (10 : ℚ) ^ (-1 : Int) ≤ |number.value| := le_trans (by norm_num) large
    have log : -1 ≤ Int.log 10 |number.value| :=
      (Int.zpow_le_iff_le_log (by decide) (abs_pos.2 nonzero)).1 (by exact_mod_cast tenth)
    have digits := digits_sub_scale nonzero
    omega
  have value := value_eq_unscaledAt places
  generalize number.unscaledAt number.digits = unscaled at value
  have unit : (0 : ℚ) < 10 ^ (2 * number.digits) := by positivity
  have whole : (1 - number.value ^ 2) * 10 ^ (2 * number.digits) =
      ((10 ^ (2 * number.digits) - unscaled ^ 2 : Int) : ℚ) := by
    have cancels : (10 : ℚ) ^ (-(number.digits : Int)) * 10 ^ number.digits = 1 := by
      rw [zpow_neg, zpow_natCast, inv_mul_cancel₀ (by positivity)]
    push_cast
    rw [value, sub_mul, one_mul, pow_mul', ← mul_pow, mul_assoc, cancels, mul_one]
  have least : (1 : ℚ) ≤ (1 - number.value ^ 2) * 10 ^ (2 * number.digits) := by
    have above := mul_pos positive unit
    rw [whole] at above ⊢
    exact_mod_cast Int.cast_pos.1 above
  rw [zpow_neg, zpow_natCast, inv_le_iff_one_le_mul₀ unit]
  exact least

/-- Whether a number is a precise one from zero to four fifths, where the series takes over. -/
def IsLeg (result : Number) : Prop :=
  ∃ leg : Decimal, result = .precise leg ∧ 0 ≤ leg.value ∧ leg.value < 4 / 5

/-- The other leg of a right triangle with a leg of four fifths of the hypotenuse or more is
worked out, and is shorter. -/
theorem completes_leg
    {argument : Decimal}
    (few : argument.digits < 10 ^ 7)
    (large : 4 / 5 ≤ |argument.value|)
    (unit : |argument.value| ≤ 1) :
    Completes Caches.AreTables
        (sqrt (.precise (Decimal.one.sub (argument.mul argument)))) IsLeg := by
  have value : (Decimal.one.sub (argument.mul argument)).value = 1 - argument.value ^ 2 := by
    rw [value_sub, value_one, value_mul, sq]
  have square : argument.value ^ 2 ≤ 1 := (sq_le_one_iff_abs_le_one _).2 unit
  have remains : 1 - argument.value ^ 2 ≤ 36 / 100 := by
    rw [← sq_abs]
    nlinarith
  rcases (sub_nonneg.2 square).eq_or_lt with zero | positive
  · rw [sqrt_of_value_eq_zero (value.trans zero.symm)]
    refine .pure ⟨.zero, rfl, value_zero.ge, ?_⟩
    rw [value_zero]
    norm_num
  have lower : 10 ^ (-(2 * 10 ^ 7 : Nat) : Int) ≤ 1 - argument.value ^ 2 :=
    (zpow_le_zpow_right₀ (by norm_num) (by omega)).trans (one_sub_square_ge large positive)
  have upper : 1 - argument.value ^ 2 ≤ 10 ^ (2 * 10 ^ 7) :=
    remains.trans ((one_le_pow₀ (by norm_num)).trans' (by norm_num))
  rw [← value] at lower upper remains
  obtain ⟨least, most⟩ := within_powers_of_two lower upper
  have errors : ((4 * (2 * 10 ^ 7) : Nat) + 1 : ℝ) * roundingError internalPrecision ≤ 1 / 10 := by
    rw [roundingError_internalPrecision]
    norm_num
  have logarithm : (35 / 100 * (4 * (2 * 10 ^ 7) : Nat) + 1 : ℝ) ≤ 99 / 100 * 2 ^ 25 := by norm_num
  refine (completes_sqrt least most errors logarithm (by decide)).mono ?_
  rintro _ ⟨leg, rfl, near⟩
  have root : Real.sqrt (Decimal.one.sub (argument.mul argument)).value ≤ 3 / 5 := by
    refine Real.sqrt_le_iff.2 ⟨by norm_num, ?_⟩
    have cast := (Rat.cast_le (K := ℝ)).2 remains
    push_cast at cast
    linarith
  have close := near.le (by norm_num) root (by norm_num)
  refine ⟨leg, rfl, ?_, ?_⟩
  · exact_mod_cast near.nonneg (Real.sqrt_nonneg _)
  · refine (Rat.cast_lt (K := ℝ)).1 (close.trans_lt ?_)
    norm_num

/-! ## The reduction -/

theorem withinUnit_precise (number : Decimal) :
    withinUnit (.precise number) = decide (|number.value| ≤ 1) := by
  rw [withinUnit, Number.abs_precise, Number.kind_precise, Number.one_precise,
    Number.compare_precise,
    value_abs, value_one, Bool.eq_iff_iff, decide_eq_true_iff, bne_iff_ne, ne_eq,
    compare_gt_iff_gt, not_lt]

section

variable {library : Library} {argument : Decimal}

/-- What one call does with an argument of the domain. -/
theorem arcsinWithin_of_unit (unit : |argument.value| ≤ 1) (depth : Nat) :
    arcsinWithin library (depth + 1) (.precise argument) =
      if 4 / 5 ≤ |argument.value| then do
        let leg ← sqrt (.precise (Decimal.one.sub (argument.mul argument)))
        let quarter ← halfPi library .precise
        let rest ← arcsinWithin library depth leg
        let angle ← quarter.sub rest
        angle.mul (.precise (.ofInt argument.signum))
      else arcsineSeries (.precise argument) := by
  have parsed : Number.parse .precise "0.8" = .ok (.precise ⟨8, 1⟩) := by decide +kernel
  have fourFifths : (⟨8, 1⟩ : Decimal).value = 4 / 5 := by norm_num [value_mk]
  have sign : (Number.precise argument).signum = argument.signum := rfl
  rw [arcsinWithin]
  simp only [withinUnit_precise, unit, decide_true, if_true,
    Number.kind_precise, Number.abs_precise,
    Number.one_precise, Number.ofInt_precise, Number.mul_precise, Number.sub_precise, parsed,
    atLeast_precise, value_abs, fourFifths, decide_eq_true_iff, sign, lift_ok, pure_bind]

/-- Below four fifths nothing but the series is worked out. -/
theorem arcsinWithin_of_small (small : |argument.value| < 4 / 5) (depth : Nat) :
    arcsinWithin library (depth + 1) (.precise argument) = arcsineSeries (.precise argument) := by
  rw [arcsinWithin_of_unit (by linarith), if_neg small.not_ge]

/-- Below four fifths the series is reached in one call and completes. -/
theorem completesFrom_series (small : |argument.value| < 4 / 5) :
    CompletesFrom sound (fun depth => arcsinWithin library depth (.precise argument))
        1 fun result =>
      ∃ sum : Decimal, result = .precise sum :=
  .leaf (arcsinWithin_of_small small) (completes_arcsineSeries small)

/-- From four fifths on the leg takes the series, and what it gives is subtracted from a quarter
turn. -/
theorem completesFrom_leg
    (pi : Completes sound (library.pi .precise) (· = .precise piDigits))
    (leg : Completes sound (sqrt (.precise (Decimal.one.sub (argument.mul argument)))) IsLeg)
    (large : 4 / 5 ≤ |argument.value|)
    (unit : |argument.value| ≤ 1) :
    CompletesFrom sound (fun depth => arcsinWithin library depth (.precise argument))
        2 fun result =>
      ∃ angle : Decimal, result = .precise angle := by
  refine .call (fun depth => (arcsinWithin_of_unit unit depth).trans (if_pos large))
    (leg.bindFrom ?_)
  rintro _ ⟨leg, rfl, nonneg, small⟩
  refine (completes_halfPi pi).bindFrom ?_
  rintro _ ⟨quarter, rfl, -⟩
  have size : |leg.value| < 4 / 5 := by rwa [abs_of_nonneg nonneg]
  refine (completesFrom_series size).bind ?_
  rintro _ ⟨rest, rfl⟩
  exact .pure ⟨_, rfl⟩

end

open Standard in
/-- The arcsine of every number from minus one to one with fewer than ten million digits is
worked out, with one reduction at most.  From four fifths on the complementary leg is from zero
to four fifths again, so that the series takes over, which ends for every number below four
fifths in size. -/
theorem arcsin_ends
    (kind : NumberKind)
    {argument : Decimal}
    (few : argument.digits < 10 ^ 7)
    (unit : |argument.value| ≤ 1) :
    (∃ angle : Decimal,
      Gives (arcsin (registry.library kind) (.precise argument)) (.precise angle) ∧
      ∀ depth ≥ 2,
        Gives (arcsinWithin (registry.library kind) depth (.precise argument)) (.precise angle)) ∧
      (4 / 5 ≤ |argument.value| → ∃ leg : Decimal,
        Gives (sqrt (.precise (Decimal.one.sub (argument.mul argument)))) (.precise leg) ∧
        0 ≤ leg.value ∧ leg.value < 4 / 5) ∧
      ∀ reached : Decimal, |reached.value| < 4 / 5 →
        (∀ depth, arcsinWithin (registry.library kind) (depth + 1) (.precise reached) =
          arcsineSeries (.precise reached)) ∧
        ∃ sum : Decimal, Gives (arcsineSeries (.precise reached)) (.precise sum) := by
  have pi : Completes (registry.Keeps Caches.AreTables) ((registry.library kind).pi .precise)
      (· = .precise piDigits) := completes_pi
  have filled (caches : Caches) (fills : Fills caches) := fills.keeps
  refine ⟨?_, fun large => ?_, fun reached small => ⟨arcsinWithin_of_small small, ?_⟩⟩
  · have completes : CompletesFrom (registry.Keeps Caches.AreTables)
        (fun depth => arcsinWithin (registry.library kind) depth (.precise argument)) 2
        fun result => ∃ angle : Decimal, result = .precise angle := by
      rcases lt_or_ge |argument.value| (4 / 5) with small | large
      · exact (completesFrom_series small).deepen (by decide)
      · have steady := steady_sqrt (registry.guards_keeps Caches.guards_areTables)
          (.precise (Decimal.one.sub (argument.mul argument)))
        exact completesFrom_leg pi
          (completes_keeps steady (completes_leg few large unit)) large unit
    obtain ⟨_, ⟨angle, rfl⟩, settled⟩ := completes.settle
    obtain ⟨_, rfl, gives⟩ := gives_of_sound filled settled.withLimit
    refine ⟨angle, gives, fun depth enough => ?_⟩
    obtain ⟨_, rfl, givesWithin⟩ := gives_of_sound filled (settled.completes enough)
    exact givesWithin
  · obtain ⟨_, ⟨leg, rfl, nonneg, small⟩, gives⟩ :=
      gives_of_completes (completes_leg few large unit)
    exact ⟨leg, gives, nonneg, small⟩
  · have series : Completes Caches.AreTables (arcsineSeries (.precise reached)) fun result =>
        ∃ sum : Decimal, result = .precise sum := completes_arcsineSeries small
    obtain ⟨_, ⟨sum, rfl⟩, gives⟩ := gives_of_completes series
    exact ⟨sum, gives⟩

open Standard in
/-- A number so near to one that its leg is shorter than a ten thousandth, and one that is almost
led to a leg. -/
theorem arcsin_ends_near_one :
    (⟨-9999999999, 10⟩ : Decimal).digits < 10 ^ 7 ∧ |(⟨-9999999999, 10⟩ : Decimal).value| ≤ 1 ∧
      4 / 5 ≤ |(⟨-9999999999, 10⟩ : Decimal).value| ∧ |(⟨79, 2⟩ : Decimal).value| < 4 / 5 ∧
      ∃ angle leg sum : Decimal,
        Gives (arcsin (registry.library .precise) (.precise ⟨-9999999999, 10⟩)) (.precise angle) ∧
        Gives (arcsinWithin (registry.library .precise) 2 (.precise ⟨-9999999999, 10⟩))
          (.precise angle) ∧
        Gives (sqrt (.precise (Decimal.one.sub
            ((⟨-9999999999, 10⟩ : Decimal).mul ⟨-9999999999, 10⟩))))
          (.precise leg) ∧
        0 ≤ leg.value ∧ leg.value < 4 / 5 ∧
        arcsinWithin (registry.library .precise) 1 (.precise ⟨79, 2⟩) =
          arcsineSeries (.precise ⟨79, 2⟩) ∧
        Gives (arcsineSeries (.precise ⟨79, 2⟩)) (.precise sum) := by
  have few : (⟨-9999999999, 10⟩ : Decimal).digits < 10 ^ 7 := by decide +kernel
  have size : |(⟨-9999999999, 10⟩ : Decimal).value| = 9999999999 / 10 ^ 10 := by
    rw [abs_value]
    norm_num
  have unit : |(⟨-9999999999, 10⟩ : Decimal).value| ≤ 1 := by
    rw [size]
    norm_num
  have large : 4 / 5 ≤ |(⟨-9999999999, 10⟩ : Decimal).value| := by
    rw [size]
    norm_num
  have small : |(⟨79, 2⟩ : Decimal).value| < 4 / 5 := by
    rw [abs_value]
    norm_num
  obtain ⟨⟨angle, gives, within⟩, reduces, ends⟩ := arcsin_ends .precise few unit
  obtain ⟨leg, givesLeg, nonneg, short⟩ := reduces large
  obtain ⟨unfolds, sum, givesSum⟩ := ends ⟨79, 2⟩ small
  exact ⟨few, unit, large, small, angle, leg, sum, gives, within 2 le_rfl, givesLeg, nonneg, short,
    unfolds 0, givesSum⟩

end Trigonometry
end Reckoner
