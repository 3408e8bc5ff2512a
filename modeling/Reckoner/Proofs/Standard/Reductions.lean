import Reckoner.Proofs.Evaluation.Answering
import Reckoner.Proofs.Number.Arithmetic
import Reckoner.Proofs.Standard.Completion

/-!
# Argument reductions of floating point numbers

The exponential halves its argument until it is at most one, and the logarithm moves its argument
toward one by factors of two.  A halved or doubled finite number is another number, so that the
loops end, and the series after them end as well, since the terms shrink or the bounds grow.  The
half of the infinity is the infinity again: there the loops never end.
-/

namespace Reckoner

open Binary64 (HasSize exponentWeight extent infinityMagnitude)

namespace Number

theorem one_fast : Number.one .fast = .fast .one := by decide +kernel

theorem add_fast (first second : Binary64) :
    (Number.fast first).add (.fast second) = .ok (.fast (first.add second)) := rfl

theorem sub_fast (first second : Binary64) :
    (Number.fast first).sub (.fast second) = .ok (.fast (first.sub second)) := rfl

theorem mul_fast (first second : Binary64) :
    (Number.fast first).mul (.fast second) = .ok (.fast (first.mul second)) := rfl

theorem div_fast {first second : Binary64} (nonzero : second.magnitude ≠ 0) :
    (Number.fast first).div (.fast second) = .ok (.fast (first.div second)) := by
  have divisor : second.isZero = false := decide_eq_false nonzero
  rw [Number.div, Binary64.divide, divisor, if_neg Bool.false_ne_true]
  rfl

theorem kind_fast (number : Binary64) : (Number.fast number).kind = .fast := rfl

theorem ofInt_fast (number : Int) : Number.ofInt .fast number = .fast (.ofInt number) := rfl

theorem signum_fast (number : Binary64) : (Number.fast number).signum = number.signum := rfl

theorem neg_fast (number : Binary64) : (Number.fast number).neg = .fast number.neg := rfl

theorem trimmed_fast (number : Binary64) : (Number.fast number).trimmed = .fast number := rfl

theorem maxError_fast (number : Binary64) : (Number.fast number).maxError = .fast .maxError := rfl

/-- The size of a number has the same magnitude. -/
theorem exists_abs_fast {number : Binary64} (proper : number.isNaN = false) :
    ∃ size : Binary64, (Number.fast number).abs = .fast size ∧
      size.magnitude = number.magnitude ∧ size.IsUnsigned := by
  unfold Number.abs
  split
  next negative =>
    exact ⟨number.neg, rfl, Binary64.magnitude_neg number, Binary64.isUnsigned_neg negative⟩
  next natural => exact ⟨number, rfl, rfl, Binary64.isUnsigned_of_signum proper natural⟩

end Number

namespace Caches

/-- The factorial of floating point numbers is at least one; from some number on it is infinite. -/
theorem exists_factorialOf_fast (number : Nat) :
    ∃ factorial : Binary64, factorialOf .fast number = .ok (.fast factorial) ∧
      HasSize 1 factorial := by
  have one : HasSize 1 (.ofInt 1) := Binary64.hasSize_ofInt_of_pos one_pos
  match number with
  | 0 | 1 => exact ⟨_, rfl, one⟩
  | number + 2 =>
      obtain ⟨last, known, large⟩ := exists_factorialOf_fast (number + 1)
      refine ⟨_, ?_, large.mul
        (Binary64.hasSize_ofInt_of_pos (by omega : 0 < ((number + 2 : Nat) : Int)))⟩
      rw [factorialOf, known]
      rfl

end Caches

namespace Elementary

open Run

variable {sound : Caches → Prop}

/-- Fast numbers exceed each other if their ranks do. -/
theorem exceeds_fast (first second : Binary64) :
    exceeds (.fast first) (.fast second) = .ok (decide (second.rank < first.rank)) := by
  refine congrArg Except.ok ?_
  rw [Bool.eq_iff_iff, decide_eq_true_iff, beq_iff_eq, Binary64.order, compare_gt_iff_gt]

theorem atLeast_fast (first second : Binary64) :
    atLeast (.fast first) (.fast second) = .ok (decide (second.rank ≤ first.rank)) := by
  refine congrArg Except.ok ?_
  rw [Bool.eq_iff_iff, decide_eq_true_iff, bne_iff_ne, ne_eq, Binary64.order,
    compare_lt_iff_lt, not_lt]

section

variable {first second : Binary64} (proper : first.isNaN = false)
  (natural : second.isNegative = false)

include proper natural

/-- The size of a number is compared by its magnitude. -/
theorem exceeds_abs_fast :
    exceeds (Number.fast first).abs (.fast second) =
      .ok (decide (second.magnitude < first.magnitude)) := by
  obtain ⟨size, abs, same, unsigned⟩ := Number.exists_abs_fast proper
  rw [abs, exceeds_fast, ← same, decide_eq_decide.2 (unsigned.rank_lt_iff natural)]

/-- The sizes of fast numbers are compared by their magnitudes. -/
theorem atLeast_abs_fast (nonzero : second.magnitude ≠ 0) :
    atLeast (Number.fast first).abs (.fast second) =
      .ok (decide (second.magnitude ≤ first.magnitude)) := by
  obtain ⟨size, abs, same, unsigned⟩ := Number.exists_abs_fast proper
  rw [abs, atLeast_fast, ← same, decide_eq_decide.2 (unsigned.rank_le_iff natural nonzero)]

end

/-! ## Halving -/

theorem hasSize_two : HasSize 2 (.ofInt 2) := Binary64.hasSize_ofInt_of_one_lt one_lt_two

/-- The half of a number is smaller. -/
theorem half_lt
    {value : Binary64}
    (natural : value.IsNatural)
    (many : Binary64.one.magnitude < value.magnitude) :
    (value.div (.ofInt 2)).IsNatural ∧ (value.div (.ofInt 2)).magnitude < value.magnitude := by
  have less := Binary64.magnitude_div_lt natural.isFinite hasSize_two (many.trans' (by decide))
  obtain ⟨_, _, _, rounded⟩ := Binary64.exists_rounded_div natural.isFinite hasSize_two two_pos
  refine ⟨⟨Binary64.isFinite_iff.2 (less.trans (Binary64.isFinite_iff.1 natural.isFinite)), ?_⟩,
    less⟩
  rw [rounded.isNegative, natural.isNegative, Binary64.isNegative_ofInt two_pos.le]
  rfl

/-- An argument that is being halved; what is left is its magnitude. -/
def IsHalving (left : Nat) (state : Number × Nat) : Prop :=
  ∃ (value : Binary64) (halvings : Nat), state = (.fast value, halvings) ∧
    value.isFinite = true ∧ value.IsUnsigned ∧ value.magnitude = left

/-- An argument that has been halved until it is at most one. -/
def IsSmall (state : Number × Nat) : Prop :=
  ∃ (value : Binary64) (halvings : Nat), state = (.fast value, halvings) ∧
    value.isFinite = true ∧ extent value.magnitude ≤ 1

/-- A finite argument above one is halved, and its magnitude becomes smaller. -/
theorem completes_halveStep_fast
    {left : Nat}
    {state : Number × Nat}
    (halving : IsHalving left state) :
    Completes sound (halveStep (.fast .one) (.fast (.ofInt 2)) state)
      (Advances IsHalving IsSmall left) := by
  obtain ⟨value, halvings, rfl, finite, unsigned, rfl⟩ := halving
  unfold halveStep
  simp only [exceeds_fast, unsigned.rank_lt_iff (rfl : Binary64.one.isNegative = false),
    Number.div_fast (hasSize_two.nonzero two_pos), lift_ok, pure_bind, decide_eq_true_iff]
  split
  next more =>
    have natural := unsigned.isNegative (Nat.ne_of_gt (Nat.zero_lt_of_lt more))
    obtain ⟨naturalHalf, less⟩ := half_lt ⟨finite, natural⟩ more
    exact Completes.check.bind fun _ _ =>
      .pure ⟨_, less, _, _, rfl, naturalHalf.isFinite, naturalHalf.isUnsigned, rfl⟩
  next small =>
    refine .pure ⟨value, halvings, rfl, finite, ?_⟩
    rw [← Binary64.extent_one]
    exact Binary64.extent_strictMono.monotone (Nat.not_lt.1 small)

/-- The halving of a finite number ends. -/
theorem completes_halving_fast
    {argument : Binary64}
    (finite : argument.isFinite = true)
    (unsigned : argument.IsUnsigned) :
    Completes sound
      (repeatUntil (halveStep (.fast .one) (.fast (.ofInt 2))) (.fast argument, 0)) IsSmall :=
  .repeatUntil IsHalving (fun _ _ => completes_halveStep_fast)
    ⟨argument, 0, rfl, finite, unsigned, rfl⟩

/-- A result that is a floating point number. -/
def IsFast (result : Number) : Prop :=
  ∃ value : Binary64, result = .fast value

/-- The exponential series under way.  The side that bounds the terms does not grow, and the
other side grows, so that it cannot stay below for long. -/
def IsExpSum (left : Nat) (series : ExpSeries) : Prop :=
  ∃ (sum numerator low high : Binary64) (index : Nat),
    series = ⟨.fast sum, .fast numerator, .fast low, .fast high, index⟩ ∧
      low.isFinite = true ∧ high.isFinite = true ∧ high.isNegative = false ∧ high.magnitude ≠ 0 ∧
      left = infinityMagnitude - high.magnitude

/-- The left side of the test grows slower than the right one, and the sum stays finite. -/
theorem completes_expSeriesStep_fast
    (guards : Caches.GuardsFactorials sound)
    {argument : Binary64}
    (finite : argument.isFinite = true)
    (small : extent argument.magnitude ≤ 1)
    {left : Nat}
    {series : ExpSeries}
    (isSum : IsExpSum left series) :
    Completes sound (expSeriesStep (.fast argument) series) (Advances IsExpSum IsFast left) := by
  obtain ⟨sum, numerator, low, high, index, rfl, finiteLow, finiteHigh, natural, nonzero, rfl⟩ :=
    isSum
  obtain ⟨factorial, known, large⟩ := Caches.exists_factorialOf_fast (index + 1)
  have bounded := (Binary64.magnitude_mul_le finiteLow finite small).trans_lt
    (Binary64.isFinite_iff.1 finiteLow)
  have factor : HasSize 2 (.ofInt ((index + 1 : Nat) + 1 : Int)) :=
    Binary64.hasSize_ofInt_of_one_lt (by omega)
  obtain ⟨grows, -, sign⟩ := Binary64.lt_magnitude_mul finiteHigh factor nonzero
  rw [natural, Binary64.isNegative_ofInt (by omega)] at sign
  unfold expSeriesStep
  refine Completes.check.bind fun _ _ => ?_
  refine (Completes.factorial guards known).bind ?_
  rintro _ rfl
  simp only [Number.div_fast (large.nonzero one_pos), Number.add_fast, Number.mul_fast,
    Number.kind_fast, Number.ofInt_fast, Number.trimmed_fast, exceeds_fast, lift_ok, pure_bind,
    decide_eq_true_iff]
  split
  next more =>
    have finiteNext := (Binary64.magnitude_lt_of_rank_lt sign more).trans bounded
    have finiteBefore := Binary64.isFinite_iff.1 finiteHigh
    exact .pure ⟨_, by omega, _, _, _, _, _, rfl, Binary64.isFinite_iff.2 bounded,
      Binary64.isFinite_iff.2 finiteNext, sign, Nat.ne_of_gt (Nat.zero_lt_of_lt grows), rfl⟩
  next => exact .pure ⟨_, rfl⟩

/-- For a finite argument up to one the series of the exponential completes. -/
theorem completes_expSeries_fast
    (guards : Caches.GuardsFactorials sound)
    {argument : Binary64}
    (finite : argument.isFinite = true)
    (small : extent argument.magnitude ≤ 1) :
    Completes sound (expSeries (.fast argument)) IsFast := by
  have three : (Binary64.ofInt 3).isFinite = true := by decide +kernel
  have finiteStart := (Binary64.rounded_mul finite three).isFinite (Binary64.isFinite_iff.1 three)
    (mul_le_of_le_one_left (Binary64.extent_nonneg _) small)
  unfold expSeries
  simp only [Number.kind_fast, Number.ofInt_fast, Number.mul_fast, lift_ok, pure_bind]
  exact .repeatUntil IsExpSum
    (fun _ _ isSum => completes_expSeriesStep_fast guards finite small isSum)
    ⟨_, argument, _, .maxError, 0, rfl, finiteStart, rfl, rfl, by decide, rfl⟩

/-- Squaring ends at the latest when it has been done often enough, or before at an infinity. -/
theorem completes_squareTimes_fast (times : Nat) (number : Binary64) :
    Completes sound (squareTimes times (.fast number)) fun result =>
      ∀ value, result = some value → IsFast value := by
  induction times generalizing number with
  | zero => exact .pure fun value same => ⟨number, (Option.some.inj same).symm⟩
  | succ times hypothesis =>
      unfold squareTimes
      refine Completes.check.bind fun _ _ => ?_
      simp only [Number.mul_fast, lift_ok, pure_bind]
      split
      next => exact hypothesis _
      next => exact .pure fun _ same => absurd same (Option.some_ne_none _).symm

/-- The exponential of a finite number that is not negative is worked out, or it is found to
leave the range. -/
theorem completes_expNonNegative_fast
    (guards : Caches.GuardsFactorials sound)
    {argument : Binary64}
    (finite : argument.isFinite = true)
    (unsigned : argument.IsUnsigned) :
    Completes sound (expNonNegative (.fast argument)) fun result =>
      ∀ value, result = some value → IsFast value := by
  unfold expNonNegative
  simp only [Number.kind_fast, Number.ofInt_fast, Number.one_fast]
  refine (completes_halving_fast finite unsigned).bind ?_
  rintro _ ⟨reduced, halvings, rfl, finiteReduced, small⟩
  refine (completes_expSeries_fast guards finiteReduced small).bind ?_
  rintro _ ⟨sum, rfl⟩
  exact completes_squareTimes_fast halvings sum

/-! ## Moving toward one -/

section

variable {value : Binary64} (natural : value.IsNatural)

include natural

/-- The distance from one is rounded once. -/
theorem rounded_distance :
    Binary64.Rounded (value.magnitude < Binary64.one.magnitude) |extent value.magnitude - 1|
      (value.sub .one) := by
  rw [← Binary64.extent_one]
  exact Binary64.rounded_sub natural Binary64.isNatural_one

/-- A number lies on the side of one on which its magnitude does. -/
theorem signum_distance :
    (value.sub .one).signum = Int.sign (value.magnitude - Binary64.one.magnitude) :=
  Binary64.signum_sub natural Binary64.isNatural_one

end

/-- A tenth, as near as a floating point number can be. -/
def tenth : Binary64 := ⟨0x3fb999999999999a⟩

theorem parse_tenth : Number.parse .fast "0.1" = .ok (.fast tenth) := by decide +kernel

/-- An argument that is being moved toward one; what is left is how far its magnitude is from
that of one. -/
def IsMoving (left : Nat) (state : Number × Int) : Prop :=
  ∃ (value : Binary64) (halvings : Int), state = (.fast value, halvings) ∧
    value.IsNatural ∧ value.magnitude ≠ 0 ∧
    left = (value.magnitude - Binary64.one.magnitude) + (Binary64.one.magnitude - value.magnitude)

/-- An argument whose distance from one is clearly less than one. -/
def IsNearOne (state : Number × Int) : Prop :=
  ∃ (value : Binary64) (halvings : Int), state = (.fast value, halvings) ∧
    (value.sub .one).isFinite = true ∧ extent (value.sub .one).magnitude ≤ 7 / 8

theorem extent_sevenEighths : extent (1021 * exponentWeight + 7 * 2 ^ 50) = 7 / 8 := by
  rw [Binary64.extent_units 1021 (by decide) (.inr (by decide)), Binary64.leastExponent]
  norm_num

theorem extent_fifteenEighths : extent (1022 * exponentWeight + 15 * 2 ^ 49) = 15 / 8 := by
  rw [Binary64.extent_units 1022 (by decide) (.inr (by decide)), Binary64.leastExponent]
  norm_num

/-- Between an eighth and fifteen eighths a number is near one. -/
theorem isNearOne_of_le
    {value : Binary64}
    (natural : value.IsNatural)
    (least : 1 / 8 ≤ extent value.magnitude)
    (most : extent value.magnitude ≤ 15 / 8)
    (halvings : Int) :
    IsNearOne (.fast value, halvings) := by
  have rounded := rounded_distance natural
  have bounded : |extent value.magnitude - 1| ≤ extent (1021 * exponentWeight + 7 * 2 ^ 50) := by
    rw [extent_sevenEighths, abs_le]
    constructor <;> linarith
  exact ⟨value, halvings, rfl, rounded.isFinite (by decide) bounded,
    (rounded.extent_le bounded).trans_eq extent_sevenEighths⟩

/-- Within a tenth of one, as the subtraction gives it, is within an eighth of one. -/
theorem abs_distance_lt
    {value : Binary64}
    (natural : value.IsNatural)
    (close : (value.sub .one).magnitude < tenth.magnitude) :
    |extent value.magnitude - 1| < 1 / 8 := by
  have eighth : extent (1019 * exponentWeight + exponentWeight) = 1 / 8 := by
    rw [Binary64.extent_power]
    norm_num
  by_contra far
  rw [not_lt, ← eighth] at far
  have least := (rounded_distance natural).ge _ (by decide) far
  exact absurd (least.trans_lt close) (by decide)

/-- Not within a tenth of one, as the subtraction gives it, is not within a sixteenth of one. -/
theorem lt_abs_distance
    {value : Binary64}
    (natural : value.IsNatural)
    (far : tenth.magnitude ≤ (value.sub .one).magnitude) :
    1 / 16 < |extent value.magnitude - 1| := by
  have sixteenth : extent (1018 * exponentWeight + exponentWeight) = 1 / 16 := by
    rw [Binary64.extent_power]
    norm_num
  by_contra close
  rw [not_lt, ← sixteenth] at close
  have most := (rounded_distance natural).le _ close
  exact absurd (far.trans most) (by decide)

section

variable {value : Binary64} (natural : value.IsNatural)

include natural

/-- What is above one is halved to a half at least. -/
theorem half_le (above : Binary64.one.magnitude < value.magnitude) :
    1 / 2 ≤ extent (value.div (.ofInt 2)).magnitude := by
  have half : extent (1021 * exponentWeight + exponentWeight) = 1 / 2 := by
    rw [Binary64.extent_power]
    norm_num
  have rounded := Binary64.rounded_div natural.isFinite Binary64.isFinite_ofInt_two
    (hasSize_two.nonzero two_pos)
  have exceeds := Binary64.extent_strictMono above
  rw [Binary64.extent_one] at exceeds
  rw [← half]
  refine rounded.le_extent (by decide) ?_
  rw [half, Binary64.extent_ofInt_two]
  linarith

/-- What is clearly below one is doubled to less than two. -/
theorem double_le
    (nonzero : value.magnitude ≠ 0)
    (below : extent value.magnitude ≤ 15 / 16) :
    (value.mul (.ofInt 2)).IsNatural ∧ value.magnitude < (value.mul (.ofInt 2)).magnitude ∧
      extent (value.mul (.ofInt 2)).magnitude ≤ 15 / 8 := by
  have rounded := Binary64.rounded_mul natural.isFinite Binary64.isFinite_ofInt_two
  have bounded : extent value.magnitude * extent (Binary64.ofInt 2).magnitude ≤
      extent (1022 * exponentWeight + 15 * 2 ^ 49) := by
    rw [extent_fifteenEighths, Binary64.extent_ofInt_two]
    linarith
  obtain ⟨less, -, sign⟩ := Binary64.lt_magnitude_mul natural.isFinite hasSize_two nonzero
  rw [natural.isNegative, Binary64.isNegative_ofInt two_pos.le] at sign
  exact ⟨⟨rounded.isFinite (by decide) bounded, sign⟩, less,
    (rounded.extent_le bounded).trans_eq extent_fifteenEighths⟩

end

/-- A step of the reduction brings the argument nearer to one, or is the last one. -/
theorem completes_scaleStep_fast
    {left : Nat}
    {state : Number × Int}
    (moving : IsMoving left state) :
    Completes sound (scaleStep (.fast .one) (.fast (.ofInt 2)) (.fast tenth) state)
      (Advances IsMoving IsNearOne left) := by
  obtain ⟨value, halvings, rfl, natural, nonzero, rfl⟩ := moving
  unfold scaleStep
  simp only [Number.sub_fast, Number.mul_fast, Number.div_fast (hasSize_two.nonzero two_pos),
    atLeast_abs_fast (rounded_distance natural).isNaN (rfl : tenth.isNegative = false) (by decide),
    Number.signum_fast, lift_ok, pure_bind, decide_eq_true_iff, signum_distance natural,
    Int.sign_pos_iff, sub_pos, Nat.cast_lt]
  split
  next far =>
    have apart := lt_abs_distance natural far
    refine Completes.check.bind fun _ _ => ?_
    split
    next above =>
      obtain ⟨naturalHalf, less⟩ := half_lt natural above
      have least := half_le natural above
      simp only [signum_distance naturalHalf, Int.sign_nonpos_iff, sub_nonpos, Nat.cast_le]
      split
      next crossed =>
        have most := Binary64.extent_strictMono.monotone crossed
        rw [Binary64.extent_one] at most
        exact .pure (isNearOne_of_le naturalHalf (by linarith) (by linarith) _)
      next further =>
        exact .pure ⟨_, by omega, _, _, rfl, naturalHalf, by omega, rfl⟩
    next below =>
      have most := Binary64.extent_strictMono.monotone (Nat.not_lt.1 below)
      rw [Binary64.extent_one] at most
      rw [abs_of_nonpos (by linarith)] at apart
      obtain ⟨naturalDouble, greater, bounded⟩ := double_le natural nonzero (by linarith)
      simp only [signum_distance naturalDouble, Int.sign_nonneg_iff, sub_nonneg, Nat.cast_le]
      split
      next crossed =>
        have least := Binary64.extent_strictMono.monotone crossed
        rw [Binary64.extent_one] at least
        exact .pure (isNearOne_of_le naturalDouble (by linarith) bounded _)
      next further =>
        exact .pure ⟨_, by omega, _, _, rfl, naturalDouble, by omega, rfl⟩
  next close =>
    have near := abs_lt.1 (abs_distance_lt natural (Nat.not_le.1 close))
    exact .pure (isNearOne_of_le natural (by linarith [near.1]) (by linarith [near.2]) _)

/-- The moving of a finite positive number toward one ends. -/
theorem completes_scaling_fast
    {argument : Binary64}
    (natural : argument.IsNatural)
    (nonzero : argument.magnitude ≠ 0) :
    Completes sound
      (repeatUntil (scaleStep (.fast .one) (.fast (.ofInt 2)) (.fast tenth)) (.fast argument, 0))
      IsNearOne :=
  .repeatUntil IsMoving (fun _ _ => completes_scaleStep_fast)
    ⟨argument, 0, rfl, natural, nonzero, rfl⟩

/-- The logarithm series under way.  A term is at most the power of the distance that it is made
from, and the powers shrink until they no longer count. -/
def IsLnSum (left : Nat) (series : LnSeries) : Prop :=
  ∃ (numerator term sum : Binary64) (index : Int),
    series = ⟨.fast numerator, .fast term, .fast sum, index⟩ ∧
      numerator.isFinite = true ∧ term.magnitude ≤ numerator.magnitude ∧ 0 < index ∧
      numerator.magnitude = left

/-- The terms of the series become smaller with every step. -/
theorem completes_lnSeriesStep_fast
    {distance : Binary64}
    (finite : distance.isFinite = true)
    (small : extent distance.magnitude ≤ 7 / 8)
    {left : Nat}
    {series : LnSeries}
    (isSum : IsLnSum left series) :
    Completes sound (lnSeriesStep (.fast distance) (.fast .maxError) series)
      (Advances IsLnSum IsFast left) := by
  obtain ⟨numerator, term, sum, index, rfl, finiteNumerator, most, positive, rfl⟩ := isSum
  have finiteTerm := most.trans_lt (Binary64.isFinite_iff.1 finiteNumerator)
  have divisor : HasSize 1 (.ofInt (index + 1)) := Binary64.hasSize_ofInt_of_pos (by omega)
  unfold lnSeriesStep
  simp only [exceeds_abs_fast (Binary64.isNaN_eq_false_iff.2 finiteTerm.le)
    (rfl : Binary64.maxError.isNegative = false), Number.mul_fast, Number.neg_fast,
    Number.trimmed_fast, Number.kind_fast, Number.ofInt_fast, Number.add_fast,
    Number.div_fast (divisor.nonzero one_pos), lift_ok, pure_bind, decide_eq_true_iff]
  split
  next counts =>
    have many : 7 < numerator.magnitude := (counts.trans_le most).trans' (by decide)
    have less := Binary64.magnitude_mul_lt finiteNumerator finite small many
    rw [← Binary64.magnitude_neg] at less
    have finiteNext := Binary64.isFinite_iff.2
      (less.trans (Binary64.isFinite_iff.1 finiteNumerator))
    refine Completes.check.bind fun _ _ =>
      .pure ⟨_, less, _, _, _, _, rfl, finiteNext, ?_, by omega, rfl⟩
    exact Binary64.magnitude_div_le finiteNext divisor
  next => exact .pure ⟨sum, rfl⟩

/-- Near one the series of the logarithm completes. -/
theorem completes_lnNearOne_fast
    {value : Binary64}
    (finite : (value.sub .one).isFinite = true)
    (small : extent (value.sub .one).magnitude ≤ 7 / 8) :
    Completes sound (lnNearOne (.fast value)) IsFast := by
  unfold lnNearOne
  simp only [Number.kind_fast, Number.one_fast, Number.sub_fast,
    Number.maxError_fast, lift_ok, pure_bind]
  exact .repeatUntil IsLnSum (fun _ _ => completes_lnSeriesStep_fast finite small)
    ⟨_, _, _, 1, rfl, finite, le_rfl, one_pos, rfl⟩

/-! ## The logarithm of two -/

/-- The series of the logarithm of two under way; the powers of a third shrink. -/
def IsLnTwoSum (left : Nat) (series : LnTwoSeries) : Prop :=
  ∃ (thirds quarters sum : Binary64) (index : Int),
    series = ⟨.fast thirds, .fast quarters, .fast sum, index⟩ ∧
      thirds.isFinite = true ∧ 0 ≤ index ∧ thirds.magnitude = left

/-- The powers of a third become smaller with every step. -/
theorem completes_lnTwoStep_fast
    {left : Nat}
    {series : LnTwoSeries}
    (isSum : IsLnTwoSum left series) :
    Completes sound (lnTwoStep .fast (.fast .maxError) series)
        (Advances IsLnTwoSum IsFast left) := by
  obtain ⟨thirds, quarters, sum, index, rfl, finite, natural, rfl⟩ := isSum
  have three : HasSize 2 (.ofInt 3) := Binary64.hasSize_ofInt_of_one_lt (by decide)
  have four : HasSize 2 (.ofInt 4) := Binary64.hasSize_ofInt_of_one_lt (by decide)
  have divisor : HasSize 1 (.ofInt (index + 1)) := Binary64.hasSize_ofInt_of_pos (by omega)
  unfold lnTwoStep
  simp only [exceeds_fast, Number.one_fast, Number.ofInt_fast, Number.add_fast, Number.mul_fast,
    Number.div_fast (three.nonzero two_pos), Number.div_fast (four.nonzero two_pos),
    Number.div_fast (divisor.nonzero one_pos), lift_ok, pure_bind, decide_eq_true_iff]
  split
  next counts =>
    have many := Binary64.magnitude_lt_of_rank_lt
      (rfl : Binary64.maxError.isNegative = false) counts
    have less := Binary64.magnitude_div_lt finite three (many.trans' (by decide))
    have finiteNext := Binary64.isFinite_iff.2 (less.trans (Binary64.isFinite_iff.1 finite))
    exact Completes.check.bind fun _ _ =>
      .pure ⟨_, less, _, _, _, _, rfl, finiteNext, by omega, rfl⟩
  next => exact .pure ⟨sum, rfl⟩

/-- The series of the logarithm of two completes. -/
theorem completes_lnTwoSeries_fast : Completes sound (lnTwoSeries .fast) IsFast := by
  unfold lnTwoSeries
  simp only [Number.one_fast, Number.maxError_fast]
  exact .repeatUntil IsLnTwoSum (fun _ _ => completes_lnTwoStep_fast)
    ⟨_, _, _, 0, rfl, rfl, le_rfl, rfl⟩

/-! ## The functions of finite numbers -/

/-- The logarithm of a finite positive number is worked out. -/
theorem completes_ln_fast
    {argument : Binary64}
    (natural : argument.IsNatural)
    (nonzero : argument.magnitude ≠ 0) :
    Completes Caches.AreTables (ln (.fast argument)) IsFast := by
  have positive : ¬argument.signum ≤ 0 := by
    rw [Binary64.signum_nonpos_iff (Binary64.isNaN_of_isFinite natural.isFinite),
      natural.isNegative]
    simpa using nonzero
  unfold ln
  simp only [Number.kind_fast, Number.signum_fast, if_neg positive,
    Number.one_fast, Number.ofInt_fast,
    parse_tenth, lift_ok, pure_bind]
  refine (completes_scaling_fast natural nonzero).bind ?_
  rintro _ ⟨value, halvings, rfl, finite, small⟩
  refine (completes_lnNearOne_fast finite small).bind ?_
  rintro _ ⟨series, rfl⟩
  dsimp only
  split
  next => exact .pure ⟨series, rfl⟩
  next =>
    refine (Standard.completes_lnTwo completes_lnTwoSeries_fast).bind ?_
    rintro _ ⟨logarithm, rfl⟩
    exact .pure ⟨_, rfl⟩

/-- The logarithm of a finite number is worked out or refused. -/
theorem answers_ln_fast
    {argument : Binary64}
    (proper : argument.isNaN = false)
    (ends : argument.isFinite = true ∨ argument.isNegative = true) :
    Answers Caches.AreTables (ln (.fast argument)) := by
  by_cases refused : argument.signum ≤ 0
  · unfold ln
    rw [Number.signum_fast, if_pos refused]
    exact answers_fail (by simp)
  · rw [Binary64.signum_nonpos_iff proper, not_or, Bool.not_eq_true] at refused
    have finite := ends.resolve_right (by rw [refused.2]; exact Bool.false_ne_true)
    exact (completes_ln_fast ⟨finite, refused.2⟩ refused.1).answers

/-- The exponential of a finite number is worked out, or it is found to leave the range. -/
theorem answers_exp_fast {argument : Binary64} (finite : argument.isFinite = true) :
    Answers Caches.AreTables (exp (.fast argument)) := by
  have guards := Caches.guards_areTables.toGuardsFactorials
  have proper := Binary64.isNaN_of_isFinite finite
  unfold exp
  split
  next negative =>
    have opposite : argument.neg.isFinite = true := (Binary64.isFinite_neg argument).trans finite
    have unsigned := Binary64.isUnsigned_neg negative
    refine (completes_expNonNegative_fast guards opposite unsigned).answers_bind
      fun result fast => ?_
    cases result with
    | none => exact answers_pure _
    | some large =>
        obtain ⟨large, rfl⟩ := fast large rfl
        dsimp only
        rw [Number.kind_fast, Number.one_fast, Number.div, Binary64.divide]
        split
        · exact answers_fail (by simp)
        · exact answers_pure _
  next natural =>
    refine (completes_expNonNegative_fast guards finite
      (Binary64.isUnsigned_of_signum proper natural)).answers_bind fun result _ => ?_
    cases result with
    | none => exact answers_fail (by simp)
    | some value => exact answers_pure value

/-! ## The functions of infinities -/

/-- Half of infinity is infinity. -/
theorem half_infinity :
    (Number.fast (.infinity false)).div (.fast (.ofInt 2)) = .ok (.fast (.infinity false)) := by
  rw [Number.div_fast (hasSize_two.nonzero two_pos),
    Binary64.infinity_div Binary64.isFinite_ofInt_two,
    Binary64.isNegative_ofInt two_pos.le]
  rfl

/-- Infinity is halved without end. -/
theorem unending_halving :
    Unending (repeatUntil (halveStep (.fast .one) (.fast (.ofInt 2)))
      (.fast (.infinity false), 0)) := by
  refine .repeatUntil (fun state => state.1 = .fast (.infinity false)) ?_ rfl
  rintro ⟨_, halvings⟩ rfl
  refine ⟨(.fast (.infinity false), halvings + 1), rfl, fun limit caches => ?_⟩
  have above : Binary64.one.rank < (Binary64.infinity false).rank := by
    rw [Binary64.rank_of_natural rfl, Binary64.rank_of_natural (Binary64.isNegative_infinity false),
      Binary64.magnitude_infinity]
    decide
  simp only [halveStep, exceeds_fast, above, half_infinity, lift_ok,
    pure_bind, decide_true, if_true]
  exact Unending.check_bind limit caches

/-- Infinity is brought near one without end. -/
theorem unending_scaling :
    Unending (repeatUntil (scaleStep (.fast .one) (.fast (.ofInt 2)) (.fast tenth))
      (.fast (.infinity false), 0)) := by
  refine .repeatUntil (fun state => state.1 = .fast (.infinity false)) ?_ rfl
  rintro ⟨_, halvings⟩ rfl
  refine ⟨(.fast (.infinity false), halvings + 1), rfl, fun limit caches => ?_⟩
  have far : tenth.magnitude ≤ (Binary64.infinity false).magnitude := by
    rw [Binary64.magnitude_infinity]
    decide
  have positive : ¬(1 : Int) ≤ 0 := by decide
  simp only [scaleStep, Number.sub_fast, Binary64.infinity_sub (rfl : Binary64.one.isFinite = true),
    atLeast_abs_fast (Binary64.isNaN_infinity false)
    (rfl : tenth.isNegative = false) (by decide), far,
    Number.signum_fast, Binary64.signum_infinity, half_infinity, lift_ok, pure_bind, decide_true,
    Bool.false_eq_true, if_true, if_false, one_pos, positive]
  exact Unending.check_bind limit caches

/-- The exponential of an infinity never ends, of the negative one because it goes through the
reciprocal. -/
theorem unending_exp (negative : Bool) : Unending (exp (.fast (.infinity negative))) := by
  have unending : Unending (expNonNegative (.fast (.infinity false))) := by
    unfold expNonNegative
    simp only [Number.kind_fast, Number.one_fast, Number.ofInt_fast]
    exact unending_halving.bind _
  unfold exp
  rw [Number.signum_fast, Binary64.signum_infinity, Number.neg_fast, Binary64.neg_infinity]
  cases negative with
  | true => exact unending.bind _
  | false => exact unending.bind _

/-- The logarithm of infinity does not end. -/
theorem unending_ln : Unending (ln (.fast (.infinity false))) := by
  have positive : ¬(1 : Int) ≤ 0 := by decide
  unfold ln
  simp only [Number.signum_fast, Binary64.signum_infinity, Bool.false_eq_true, if_false, positive,
    Number.kind_fast, Number.one_fast, Number.ofInt_fast, parse_tenth, lift_ok, pure_bind]
  exact unending_scaling.bind _

/-! ## Which arguments the functions end for -/

theorem eq_infinity_of_not_finite
    {argument : Binary64}
    (proper : argument.isNaN = false)
    (infinite : ¬argument.isFinite = true) :
    argument = .infinity argument.isNegative :=
  Binary64.eq_infinity ((Binary64.isNaN_eq_false_iff.1 proper).eq_of_not_lt
    (mt Binary64.isFinite_iff.2 infinite))

/-- The reduction of an argument that is not a non-number ends exactly if the argument is finite.
So the exponential and the logarithm give a value or a failure for all finite arguments, and for
the infinity that an overflow gives they give neither, as long as they are not cancelled; the
logarithm refuses the negative infinity. -/
theorem reductions_end_iff {argument : Binary64} (proper : argument.isNaN = false) :
    (Answers Standard.Fills
        (repeatUntil (halveStep (.one .fast) (.ofInt .fast 2)) ((Number.fast argument).abs, 0)) ↔
      argument.isFinite = true) ∧
    (0 < argument.signum →
      (Answers Standard.Fills
          (repeatUntil (scaleStep (.one .fast) (.ofInt .fast 2) (.fast tenth))
            (.fast argument, 0)) ↔
        argument.isFinite = true)) ∧
    (Answers Standard.Fills (exp (.fast argument)) ↔ argument.isFinite = true) ∧
    (Answers Standard.Fills (ln (.fast argument)) ↔
      argument.isFinite = true ∨ argument.isNegative = true) := by
  have filled (caches : Caches) (fills : Standard.Fills caches) : caches.AreTables := fills.keeps.1
  have empty : ∃ caches, Standard.Fills caches := ⟨.empty, .empty⟩
  rw [Number.one_fast, Number.ofInt_fast]
  by_cases finite : argument.isFinite = true
  · refine ⟨iff_of_true ?_ finite, fun positive => iff_of_true ?_ finite,
      iff_of_true ((answers_exp_fast finite).mono filled) finite,
      iff_of_true ((answers_ln_fast proper (.inl finite)).mono filled) (.inl finite)⟩
    · obtain ⟨size, abs, same, unsigned⟩ := Number.exists_abs_fast proper
      rw [abs]
      refine (completes_halving_fast ?_ unsigned).answers
      rwa [Binary64.isFinite_iff, same, ← Binary64.isFinite_iff]
    · rw [← not_le, Binary64.signum_nonpos_iff proper, not_or, Bool.not_eq_true] at positive
      exact (completes_scaling_fast ⟨finite, positive.2⟩ positive.1).answers
  · have infinite := eq_infinity_of_not_finite proper finite
    generalize argument.isNegative = negative at infinite
    subst infinite
    refine ⟨iff_of_false ?_ finite, fun positive => iff_of_false ?_ finite,
      iff_of_false ((unending_exp negative).not_answers empty) finite, ?_⟩
    · have size : (Number.fast (.infinity negative)).abs = .fast (.infinity false) := by
        rw [Number.abs, Number.signum_fast, Binary64.signum_infinity, Number.neg_fast,
          Binary64.neg_infinity]
        cases negative <;> rfl
      rw [size]
      exact unending_halving.not_answers empty
    · cases negative with
      | true => exact absurd positive (by rw [Binary64.signum_infinity]; decide)
      | false => exact unending_scaling.not_answers empty
    · cases negative with
      | true =>
          have sign := Binary64.isNegative_infinity true
          exact iff_of_true ((answers_ln_fast proper (.inr sign)).mono filled) (.inr rfl)
      | false =>
          exact iff_of_false (unending_ln.not_answers empty)
            (not_or.2 ⟨finite, Bool.false_ne_true⟩)

/-- Two to the power of 1024 overflows, and then neither function ends. -/
theorem overflow_unending :
    (Number.ofInt .fast 2).powInt 1024 = .ok (.fast (.infinity false)) ∧
      Unending (exp (.fast (.infinity false))) ∧ Unending (ln (.fast (.infinity false))) :=
  ⟨by decide +kernel, unending_exp false, unending_ln⟩

/-- The greatest finite number. -/
theorem reductions_end_greatest :
    let greatest : Binary64 := ⟨0x7fefffffffffffff⟩
    greatest.isNaN = false ∧ Answers Standard.Fills (exp (.fast greatest)) ∧
      Answers Standard.Fills (ln (.fast greatest)) := by
  have proper : (⟨0x7fefffffffffffff⟩ : Binary64).isNaN = false := rfl
  obtain ⟨-, -, exponential, logarithm⟩ := reductions_end_iff proper
  exact ⟨proper, exponential.2 rfl, logarithm.2 (.inl rfl)⟩

end Elementary
end Reckoner
