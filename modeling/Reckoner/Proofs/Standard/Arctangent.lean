import Reckoner.Proofs.Standard.Pi
import Reckoner.Proofs.Standard.Precise

/-!
# The arctangent of precise numbers

A negative number, one above one and one from nine tenths to one are led back to another number
each.  The rounding of the quotients does not lead back and forth: from a negative number it goes
to a positive one, from there to one between zero and one, further to one of nine at least, and
from there to one that is small.  The series or one is reached after four steps at the latest,
and for numbers below nine tenths the series ends.  What is lost on the way is known from the
digits of pi and from the rounding of each quotient.
-/

namespace Reckoner
namespace Trigonometry

open Elementary Run Decimal Standard

variable {sound : Caches → Prop}

/-! ## The series -/

/-- What the arctangent series of a number has worked out when it has added so many terms behind
the first one.  Its error is that of rounding its terms, which are smaller than a geometric
series. -/
structure IsArctangentSeries (number : ℚ) (count : Nat) (power term sum : Decimal) : Prop where
  power : Near (count * roundingError powerPrecision) (number * (-number ^ 2) ^ count) power.value
  term : Near (count * roundingError powerPrecision + roundingError internalPrecision)
    (number * (-number ^ 2) ^ count / (2 * count + 1 : Nat)) term.value
  sum : |(sum.value : ℝ) - arctanSum number (count + 1)| ≤
    26 / 10 ^ 65 * (1 - ((number : ℝ) ^ 2) ^ count)

/-- Before the first term the invariant of the series holds with exact numbers. -/
theorem isArctangentSeries_start (argument : Decimal) :
    IsArctangentSeries argument.value 0 argument argument argument where
  power := by
    rw [pow_zero, mul_one]
    exact .refl (by simp) _
  term := by
    rw [pow_zero, mul_one, mul_zero, zero_add, Nat.cast_one, div_one]
    exact .refl (by simpa using (roundingError_pos internalPrecision).le) _
  sum := by
    simp [arctanSum]

theorem ratCast_le_nineTenths {number : ℚ} (small : number < 9 / 10) : (number : ℝ) ≤ 9 / 10 := by
  have cast := (Rat.cast_le (K := ℝ)).2 small.le
  push_cast at cast
  exact cast

theorem square_le {number : ℚ} (nonneg : 0 ≤ number) (small : number < 9 / 10) :
    (number : ℝ) ^ 2 ≤ 81 / 100 := by
  have least : (0 : ℝ) ≤ number := by exact_mod_cast nonneg
  have most := ratCast_le_nineTenths small
  nlinarith

theorem abs_arctangentTerm (number : ℝ) (count : Nat) :
    |number * (-number ^ 2) ^ count / (2 * count + 1 : Nat)| =
      |number| * (number ^ 2) ^ count / (2 * count + 1 : Nat) := by
  rw [abs_div, abs_mul, abs_pow, abs_neg, abs_pow, sq_abs, Nat.abs_cast]

section

variable {number : ℚ} {count : Nat} {power term sum : Decimal}
  (nonneg : 0 ≤ number) (small : number < 9 / 10)
  (series : IsArctangentSeries number count power term sum) (few : count + 1 ≤ 1000)

include nonneg small series few

/-- A step of the series finds the next term, and keeps the invariant. -/
theorem IsArctangentSeries.next
    {multiplier : Decimal}
    (square : multiplier.value = -number ^ 2) :
    ∃ nextPower nextTerm : Decimal,
      (Number.precise (power.mul multiplier)).trimmed = .precise nextPower ∧
      (Number.precise nextPower).div (.precise (.ofInt ((2 * count + 1 : Nat) + 2))) =
        .ok (.precise nextTerm) ∧
      IsArctangentSeries number (count + 1) nextPower nextTerm (sum.add nextTerm) := by
  have exact : Near 0 (-(number : ℝ) ^ 2) multiplier.value := by
    rw [square]
    push_cast
    exact .refl le_rfl _
  obtain ⟨nextPower, trimmed, nearPower⟩ := Number.near_trimmed_mul series.power exact
  rw [add_zero, mul_roundingError_add, mul_assoc, ← pow_succ] at nearPower
  obtain ⟨nextTerm, divides, nearTerm⟩ :=
    Number.near_div_natCast nearPower (2 * (count + 1)).succ_ne_zero
  refine ⟨nextPower, nextTerm, trimmed, divides, nearPower, nearTerm, ?_⟩
  have close := Number.abs_term_sub_le few nearTerm
  have least : (0 : ℝ) ≤ number := by exact_mod_cast nonneg
  have most := ratCast_le_nineTenths small
  have size : |(number : ℝ) * (-number ^ 2) ^ (count + 1) / (2 * (count + 1) + 1 : Nat)| ≤
      9 / 10 * ((number : ℝ) ^ 2) ^ (count + 1) := by
    rw [abs_arctangentTerm, abs_of_nonneg least]
    refine (div_le_self (by positivity) (by exact_mod_cast (2 * (count + 1)).succ_pos)).trans ?_
    gcongr
  have parts : (sum.value + nextTerm.value : ℝ) - arctanSum number (count + 1 + 1) =
      (sum.value - arctanSum number (count + 1)) +
        (nextTerm.value - number * (-number ^ 2) ^ (count + 1) / (2 * (count + 1) + 1 : Nat)) := by
    rw [arctanSum_succ number (count + 1)]
    push_cast
    ring
  have ratio := square_le nonneg small
  have power : ((number : ℝ) ^ 2) ^ (count + 1) = (number ^ 2) ^ count * number ^ 2 := pow_succ _ _
  have positive : (0 : ℝ) ≤ (number ^ 2) ^ count := by positivity
  have weight := mul_nonneg positive (sub_nonneg.2 ratio)
  rw [value_add, Rat.cast_add, parts]
  calc |_ + _|
    _ ≤ _ + _ := abs_add_le _ _
    _ ≤ 26 / 10 ^ 65 * (1 - ((number : ℝ) ^ 2) ^ count) +
        67 / 10 ^ 66 * (9 / 10 * ((number : ℝ) ^ 2) ^ (count + 1)) :=
      add_le_add series.sum (close.trans (mul_le_mul_of_nonneg_left size (by norm_num)))
    _ ≤ 26 / 10 ^ 65 * (1 - ((number : ℝ) ^ 2) ^ (count + 1)) := by
      rw [power]
      linarith

/-- A series that goes on has not added many terms yet. -/
theorem IsArctangentSeries.early
    {bound : ℝ}
    (counts : |(number : ℝ)| / 10 ^ 65 ≤ bound)
    (goesOn : bound < |(term.value : ℝ)|) :
    count < 720 := by
  have roundings := Number.few_roundings (Nat.le_of_succ_le few)
  have unit := roundingError_internalPrecision
  by_contra late
  have ratio := square_le nonneg small
  have size : |(number : ℝ) * (-number ^ 2) ^ count / (2 * count + 1 : Nat)| ≤
      |(number : ℝ)| * (2 / 10 ^ 66) := by
    rw [abs_arctangentTerm]
    calc |(number : ℝ)| * (number ^ 2) ^ count / (2 * count + 1 : Nat)
      _ ≤ |(number : ℝ)| * (number ^ 2) ^ count :=
        div_le_self (by positivity) (by exact_mod_cast (2 * count).succ_pos)
      _ ≤ |(number : ℝ)| * (81 / 100) ^ count := by gcongr
      _ ≤ |(number : ℝ)| * (81 / 100) ^ 720 :=
        mul_le_mul_of_nonneg_left (pow_le_pow_of_le_one (by norm_num) (by norm_num) (by omega))
          (abs_nonneg _)
      _ = |(number : ℝ)| * ((81 / 100) ^ 72) ^ 10 := by rw [← pow_mul]
      _ ≤ |(number : ℝ)| * (26 / 10 ^ 8) ^ 10 := by
        gcongr
        norm_num
      _ ≤ |(number : ℝ)| * (2 / 10 ^ 66) := mul_le_mul_of_nonneg_left (by norm_num) (abs_nonneg _)
  have upper := series.term.abs.le (by rw [unit]; linarith) size (by positivity)
  rw [unit] at upper
  have least := abs_nonneg (number : ℝ)
  nlinarith

/-- When the series stops, what it leaves out is smaller than its last term, which no longer
counts. -/
theorem IsArctangentSeries.accurate
    {bound : ℝ}
    (tiny : number ≠ 0 → bound ≤ |(number : ℝ)| / 10 ^ 64)
    (stops : |(term.value : ℝ)| ≤ bound) :
    |(sum.value : ℝ) - Real.arctan number| ≤ 4 / 10 ^ 64 := by
  have roundings := Number.few_roundings (Nat.le_of_succ_le few)
  have unit := roundingError_internalPrecision
  have ratio := square_le nonneg small
  have least : (0 : ℝ) ≤ number := by exact_mod_cast nonneg
  have most := ratCast_le_nineTenths small
  have last : (number : ℝ) * (number ^ 2) ^ count / (2 * count + 1 : Nat) ≤ 1 / 10 ^ 64 := by
    rcases eq_or_ne number 0 with zero | nonzero
    · rw [zero, Rat.cast_zero, zero_mul, zero_div]
      positivity
    have size := abs_arctangentTerm number count
    have counts := tiny nonzero
    rw [abs_of_nonneg least] at size counts
    have lower := series.term.abs.ge (by rw [unit]; linarith) size.ge (by positivity)
    rw [unit] at lower
    have positive : 0 ≤ (number : ℝ) * (number ^ 2) ^ count / (2 * count + 1 : Nat) := by positivity
    nlinarith
  have tail : |(arctanSum number (count + 1) : ℝ) - Real.arctan number| ≤ 1 / 10 ^ 64 := by
    refine (abs_arctanSum_sub_le nonneg (by linarith) (count + 1)).trans (le_trans ?_ last)
    have powers : ((number : ℝ) ^ 2) ^ (count + 1) ≤ (number ^ 2) ^ count :=
      pow_le_pow_of_le_one (by positivity) (by linarith) count.le_succ
    gcongr
    omega
  have terms : (0 : ℝ) ≤ (number ^ 2) ^ count := by positivity
  calc |(sum.value : ℝ) - Real.arctan number|
    _ ≤ _ + _ := abs_sub_le _ (arctanSum number (count + 1) : ℝ) _
    _ ≤ 26 / 10 ^ 65 * (1 - ((number : ℝ) ^ 2) ^ count) + 1 / 10 ^ 64 := add_le_add series.sum tail
    _ ≤ 4 / 10 ^ 64 := by linarith

end

/-- Whether a number is a precise one and the arctangent of another one, but for an error. -/
def IsArctangent (error : ℝ) (argument : Decimal) (result : Number) : Prop :=
  ∃ angle : Decimal, result = .precise angle ∧
    |(angle.value : ℝ) - Real.arctan argument.value| ≤ error

/-- The series ends for every number below nine tenths, and its sum is the arctangent. -/
theorem completes_arctangentSeries
    {argument : Decimal}
    (nonneg : 0 ≤ argument.value)
    (small : argument.value < 9 / 10) :
    Completes sound (arctangentSeries (.precise argument))
        (IsArctangent (4 / 10 ^ 64) argument) := by
  have square : (argument.mul argument).neg.value = -argument.value ^ 2 := by
    rw [value_neg, value_mul, sq]
  unfold arctangentSeries
  simp only [Number.mul_precise, Number.neg_precise, Number.maxError_precise, lift_ok, pure_bind]
  refine .repeatUntil (fun left series => ∃ count, ∃ power term sum : Decimal,
    series = ⟨.precise power, .precise term, .precise sum, (2 * count + 1 : Nat)⟩ ∧
      count + left = 720 ∧ IsArctangentSeries argument.value count power term sum) ?_
    ⟨0, _, _, _, rfl, Nat.zero_add 720, isArctangentSeries_start argument⟩
  rintro left _ ⟨count, power, term, sum, rfl, total, series⟩
  unfold arctangentStep
  simp only [Number.abs_precise, exceeds_precise, value_abs, lift_ok, pure_bind, decide_eq_true_iff]
  split
  next goesOn =>
    have beyond : (argument.maxError.value : ℝ) < |(term.value : ℝ)| := by
      rw [← Rat.cast_abs]
      exact Rat.cast_lt.2 goesOn
    have early := series.early nonneg small (by omega) (abs_div_le_maxError argument) beyond
    obtain ⟨nextPower, nextTerm, trimmed, divides, next⟩ :=
      series.next nonneg small (by omega) square
    refine Completes.check.bind fun _ _ => ?_
    simp only [Number.mul_precise, Number.kind_precise, Number.ofInt_precise, Number.add_precise,
      trimmed, divides, lift_ok, pure_bind]
    exact .pure ⟨left - 1, by omega, count + 1, _, _, _, rfl, by omega, next⟩
  next stops =>
    have within : |(term.value : ℝ)| ≤ argument.maxError.value := by
      rw [← Rat.cast_abs]
      exact Rat.cast_le.2 (not_lt.1 stops)
    exact .pure ⟨sum, rfl,
      series.accurate nonneg small (by omega) (fun nonzero => (maxError_bounds nonzero).2) within⟩

/-! ## The reductions -/

/-- What is lost of a quotient below one. -/
theorem abs_quotient_sub_le {number : ℚ} (small : |number| < 1) :
    |((roundSignificant internalPrecision number : ℚ) : ℝ) - number| ≤ 5 / 10 ^ 66 := by
  have unit : |number| < 10 ^ (0 : Int) := by rwa [zpow_zero]
  have close : |roundSignificant internalPrecision number - number| ≤ 5 / 10 ^ 66 := by
    refine (abs_roundSignificant_sub_le_of_lt unit internalPrecision).trans ?_
    change 1 / 2 * (10 : ℚ) ^ (0 - 65 : Int) ≤ 5 / 10 ^ 66
    norm_num
  have cast := (Rat.cast_le (K := ℝ)).2 close
  push_cast at cast
  exact cast

/-- The arctangent hardly depends on what is lost of its argument. -/
theorem abs_arctan_sub_le (first second : ℝ) :
    |Real.arctan second - Real.arctan first| ≤ |second - first| := by
  have slope (number : ℝ) : ‖deriv Real.arctan number‖ ≤ 1 := by
    rw [Real.deriv_arctan, norm_div, norm_one, Real.norm_of_nonneg (by positivity)]
    exact div_le_one_of_le₀ (by nlinarith) (by positivity)
  have bound := Convex.norm_image_sub_le_of_norm_deriv_le
    (fun number _ => Real.differentiableAt_arctan number) (fun number _ => slope number) convex_univ
    (Set.mem_univ first) (Set.mem_univ second)
  rwa [one_mul] at bound

/-- The arctangent of a number is worked out in so many calls at most, one inside the other, with
so small an error. -/
def TakesCalls
    (sound : Caches → Prop)
    (library : Library)
    (calls : Nat)
    (error : ℝ)
    (argument : Decimal) : Prop :=
  CompletesWithin sound (fun depth => arctanWithin library depth (.precise argument)) calls
    (IsArctangent error argument)

section

variable {library : Library} {calls : Nat} {error : ℝ} {argument : Decimal}

/-- More calls and a larger error are allowed as well. -/
theorem TakesCalls.relax
    (within : TakesCalls sound library calls error argument)
    {more : Nat}
    {other : ℝ}
    (enough : calls ≤ more)
    (less : error ≤ other) :
    TakesCalls sound library more other argument :=
  (within.deepen enough).mono fun _ => .imp fun _ => .imp_right fun close => close.trans less

/-- What one call does with an argument that is not negative. -/
theorem arctanWithin_of_nonneg (nonneg : 0 ≤ argument.value) (depth : Nat) :
    arctanWithin library (depth + 1) (.precise argument) =
      match compare argument.value 1 with
      | .gt => do
          let quarter ← halfPi library .precise
          let reciprocal ← Number.div (.precise .one) (.precise argument)
          let angle ← arctanWithin library depth reciprocal
          quarter.sub angle
      | .eq => do
          let pi ← library.pi .precise
          pi.div (.precise (.ofInt 4))
      | .lt =>
          if 9 / 10 ≤ argument.value then do
            let doubled ← Number.div (.precise (argument.mul (.ofInt 2)))
              (.precise (Decimal.one.sub (argument.mul argument)))
            let angle ← arctanWithin library depth doubled
            angle.div (.precise (.ofInt 2))
          else arctangentSeries (.precise argument) := by
  have parsed : Number.parse .precise "0.9" = .ok (.precise ⟨9, 1⟩) := by decide +kernel
  have nineTenths : (⟨9, 1⟩ : Decimal).value = 9 / 10 := by norm_num [value_mk]
  rw [arctanWithin]
  cases order : compare argument.value 1 <;>
    simp only [Number.signum_neg_precise, not_lt.2 nonneg, if_false, Number.kind_precise,
      Number.one_precise, Number.ofInt_precise, Number.mul_precise, Number.sub_precise,
      Number.compare_precise, value_one, order, parsed, atLeast_precise,
      nineTenths, decide_eq_true_iff,
      lift_ok, pure_bind]

/-- Below nine tenths one call is enough, that of the series. -/
theorem takesCalls_series (nonneg : 0 ≤ argument.value) (small : argument.value < 9 / 10) :
    TakesCalls sound library 1 (4 / 10 ^ 64) argument := by
  have below : argument.value < 1 := by linarith
  refine CompletesWithin.leaf _ (fun depth => ?_) (completes_arctangentSeries nonneg small)
  rw [arctanWithin_of_nonneg nonneg, compare_lt_iff_lt.2 below]
  exact if_neg small.not_ge

/-- The sign is taken off first. -/
theorem TakesCalls.neg
    (negative : argument.value < 0)
    (opposite : TakesCalls sound library calls error argument.neg) :
    TakesCalls sound library (calls + 1) error argument := by
  refine CompletesWithin.call (fun run => do return (← run).neg) opposite
    (fun depth => ?_) fun run completes => ?_
  · rw [arctanWithin]
    exact if_pos (Number.signum_neg_precise.2 negative)
  · refine completes.bind ?_
    rintro _ ⟨angle, rfl, close⟩
    refine .pure ⟨angle.neg, rfl, ?_⟩
    rw [value_neg, Rat.cast_neg, Real.arctan_neg] at close
    rwa [value_neg, Rat.cast_neg, ← abs_neg, neg_sub', neg_neg]

/-- The divisor of a doubled angle is not zero. -/
theorem one_sub_square_pos (large : 9 / 10 ≤ argument.value) (below : argument.value < 1) :
    0 < (Decimal.one.sub (argument.mul argument)).value := by
  rw [value_sub, value_one, value_mul]
  nlinarith

/-- The arctangent of a large number is that of its reciprocal, in which the rounding counts for
little. -/
theorem abs_arctan_roundSignificant_sub_le {number : ℚ} (large : 9 ≤ number) :
    |Real.arctan (roundSignificant internalPrecision number : ℚ) - Real.arctan number| ≤
      1 / 10 ^ 65 := by
  have near := near_roundSignificant (show 2 ≤ internalPrecision by decide) number
  have least : (9 : ℝ) ≤ number := by exact_mod_cast large
  have positive : (0 : ℝ) < number := by linarith
  have close := near.inv.abs_sub_le (by rw [roundingError_internalPrecision]; norm_num)
  have ninth : |(number : ℝ)⁻¹| ≤ 1 / 9 := by
    rw [abs_of_pos (inv_pos.2 positive), one_div]
    exact inv_anti₀ (by norm_num) least
  have first := Real.arctan_inv_of_pos positive
  have second := Real.arctan_inv_of_pos (near.pos positive)
  have reciprocals := abs_arctan_sub_le (number : ℝ)⁻¹
    (roundSignificant internalPrecision number : ℚ)⁻¹
  rw [first, second, sub_sub_sub_cancel_left, abs_sub_comm] at reciprocals
  rw [roundingError_internalPrecision] at close
  linarith

/-- The tangent of a doubled angle, from nine tenths on. -/
theorem exists_doubled (large : 9 / 10 ≤ argument.value) (below : argument.value < 1) :
    ∃ doubled : Decimal,
      Number.div (.precise (argument.mul (.ofInt 2)))
        (.precise (Decimal.one.sub (argument.mul argument))) = .ok (.precise doubled) ∧
      9 ≤ doubled.value ∧
      |Real.arctan doubled.value - 2 * Real.arctan argument.value| ≤ 1 / 10 ^ 65 := by
  have positive := one_sub_square_pos large below
  obtain ⟨doubled, divides, value⟩ :=
    Number.div_precise (argument.mul (.ofInt 2)) positive.ne'
  have few : HasDigits internalPrecision 9 := ⟨⟨9, 0⟩, by decide +kernel, by norm_num [value_mk]⟩
  have exact : (argument.mul (.ofInt 2)).value / (Decimal.one.sub (argument.mul argument)).value =
      2 * argument.value / (1 - argument.value ^ 2) := by
    rw [value_sub, value_one, value_mul, value_mul, value_two, mul_comm, sq]
  have least : 9 ≤ 2 * argument.value / (1 - argument.value ^ 2) := by
    rw [← exact, le_div_iff₀ positive, value_sub, value_one, value_mul, value_mul, value_two]
    nlinarith
  have doubles : 2 * Real.arctan argument.value =
      Real.arctan ((2 * argument.value / (1 - argument.value ^ 2) : ℚ) : ℝ) := by
    have above : (-1 : ℝ) < argument.value := by
      exact_mod_cast (show (-1 : ℚ) < argument.value by linarith)
    rw [Real.two_mul_arctan above (by exact_mod_cast below)]
    push_cast
    rfl
  rw [exact] at value
  refine ⟨doubled, divides, ?_, ?_⟩
  · rw [value]
    exact few.le_roundSignificant (by decide) least
  · rw [doubles, value]
    exact abs_arctan_roundSignificant_sub_le least

/-- Half of what is nearly an arctangent is below one, so that little is lost of it. -/
theorem abs_half_sub_le
    {angle : Decimal}
    {number : ℝ}
    (close : |(angle.value : ℝ) - Real.arctan number| ≤ 1 / 10) :
    |((roundSignificant internalPrecision (angle.value / 2) : ℚ) : ℝ) - angle.value / 2| ≤
      5 / 10 ^ 66 := by
  have above := Real.arctan_lt_pi_div_two number
  have under := Real.neg_pi_div_two_lt_arctan number
  have pi := Real.pi_lt_d2
  obtain ⟨lower, upper⟩ := abs_le.1 close
  have size : |(angle.value / 2 : ℝ)| < 1 := by
    rw [abs_lt]
    constructor <;> linarith
  have rounded := abs_quotient_sub_le (show |angle.value / 2| < 1 by exact_mod_cast size)
  push_cast at rounded
  exact rounded

/-- From nine tenths to one the angle is doubled, which leads far above one. -/
theorem takesCalls_double
    (large : 9 / 10 ≤ argument.value)
    (below : argument.value < 1)
    (slight : error ≤ 1 / 10)
    (within : ∀ doubled : Decimal, 9 ≤ doubled.value →
      TakesCalls sound library calls error doubled) :
    TakesCalls sound library (calls + 1) (error / 2 + 1 / 10 ^ 65) argument := by
  obtain ⟨doubled, divides, further, near⟩ := exists_doubled large below
  refine CompletesWithin.call
    (fun run => do
      let angle ← run
      angle.div (.precise (.ofInt 2)))
    (within doubled further) (fun depth => ?_) fun run completes => completes.bind ?_
  · simp only [arctanWithin_of_nonneg (show 0 ≤ argument.value by linarith),
      compare_lt_iff_lt.2 below, if_pos large, divides, lift_ok, pure_bind]
  rintro _ ⟨angle, rfl, close⟩
  obtain ⟨half, halves, value⟩ := Number.div_ofInt_precise angle two_ne_zero
  rw [Int.cast_ofNat] at value
  simp only [halves, lift_ok]
  refine .pure ⟨half, rfl, ?_⟩
  have rounded := abs_half_sub_le (close.trans slight)
  rw [← value] at rounded
  -- the errors of the angle and of its doubling are halved
  rw [abs_le] at near rounded close ⊢
  constructor <;> linarith

/-- The reciprocal of a number above one has the complementary angle. -/
theorem exists_reciprocal (above : 1 < argument.value) :
    ∃ quotient : Decimal,
      Number.div (.precise .one) (.precise argument) = .ok (.precise quotient) ∧
      quotient.value = roundSignificant internalPrecision (1 / argument.value) ∧
      |Real.arctan quotient.value - (Real.pi / 2 - Real.arctan argument.value)| ≤ 5 / 10 ^ 66 := by
  have positive : 0 < argument.value := by linarith
  obtain ⟨quotient, divides, value⟩ := Number.div_precise .one positive.ne'
  rw [value_one] at value
  refine ⟨quotient, divides, value, ?_⟩
  have small : |1 / argument.value| < 1 := by
    rw [abs_of_pos (by positivity), div_lt_one positive]
    exact above
  have rounded := abs_quotient_sub_le small
  rw [← value, one_div, Rat.cast_inv] at rounded
  rw [← Real.arctan_inv_of_pos (show (0 : ℝ) < argument.value by exact_mod_cast positive)]
  exact (abs_arctan_sub_le _ _).trans rounded

section

variable (pi : Completes sound (library.pi .precise) (· = .precise piDigits))

include pi

/-- Half of pi completes without an error of its own. -/
theorem completes_halfPi :
    Completes sound (halfPi library .precise) fun result =>
      ∃ quarter : Decimal, result = .precise quarter ∧ quarter.value = piDigits.value / 2 := by
  refine pi.bind ?_
  rintro _ rfl
  obtain ⟨half, halves, value⟩ := Number.div_ofInt_precise piDigits two_ne_zero
  rw [Int.cast_ofNat, roundSignificant_half_piDigits] at value
  simp only [Number.ofInt_precise, halves, lift_ok]
  exact .pure ⟨half, rfl, value⟩

/-- The arctangent of one is known. -/
theorem takesCalls_one (one : argument.value = 1) :
    TakesCalls sound library 1 (4 / 10 ^ 64) argument := by
  refine CompletesWithin.leaf
    (do
      let pi ← library.pi .precise
      pi.div (.precise (.ofInt 4)))
    (fun depth => ?_) (pi.bind ?_)
  · rw [arctanWithin_of_nonneg (one ▸ zero_le_one), compare_eq_iff_eq.2 one]
  rintro _ rfl
  obtain ⟨quarter, quarters, value⟩ := Number.div_ofInt_precise piDigits four_ne_zero
  rw [Int.cast_ofNat] at value
  simp only [quarters, lift_ok]
  refine .pure ⟨quarter, rfl, ?_⟩
  have small : |piDigits.value / 4| < 1 := by
    rw [value_piDigits]
    norm_num [abs_of_pos]
  have rounded := abs_quotient_sub_le small
  rw [← value] at rounded
  have digits := abs_piDigits_sub_pi_le
  rw [one, Rat.cast_one, Real.arctan_one]
  push_cast at rounded
  rw [abs_le] at rounded digits ⊢
  constructor <;> linarith

/-- Above one the reciprocal is taken. -/
theorem takesCalls_reciprocal
    (above : 1 < argument.value)
    (within : ∀ quotient : Decimal,
      quotient.value = roundSignificant internalPrecision (1 / argument.value) →
        TakesCalls sound library calls error quotient) :
    TakesCalls sound library (calls + 1) (error + 6 / 10 ^ 64) argument := by
  obtain ⟨quotient, divides, value, near⟩ := exists_reciprocal above
  refine CompletesWithin.call
    (fun run => do
      let quarter ← halfPi library .precise
      let angle ← run
      quarter.sub angle)
    (within quotient value) (fun depth => ?_)
    fun run completes => (completes_halfPi pi).bind ?_
  · simp only [arctanWithin_of_nonneg (show 0 ≤ argument.value by linarith),
      compare_gt_iff_gt.2 above, divides, lift_ok, pure_bind]
  rintro _ ⟨quarter, rfl, valueQuarter⟩
  refine completes.bind ?_
  rintro _ ⟨angle, rfl, close⟩
  refine .pure ⟨quarter.sub angle, rfl, ?_⟩
  have digits := abs_piDigits_sub_pi_le
  rw [value_sub, valueQuarter]
  push_cast
  rw [abs_le] at near digits close ⊢
  constructor <;> linarith

/-! ## From region to region -/

/-- The reciprocal of a large number is small, rounded or not. -/
theorem takesCalls_of_nine_le (large : 9 ≤ argument.value) :
    TakesCalls sound library 2 (10 / 10 ^ 64) argument := by
  have ninth : 1 / argument.value ≤ 1 / 9 := one_div_le_one_div_of_le (by norm_num) large
  have few : HasDigits internalPrecision (8 / 10) :=
    ⟨⟨8, 1⟩, by decide +kernel, by norm_num [value_mk]⟩
  have within (quotient : Decimal)
      (value : quotient.value = roundSignificant internalPrecision (1 / argument.value)) :
      TakesCalls sound library 1 (4 / 10 ^ 64) quotient := by
    have nonneg : 0 ≤ quotient.value := by
      rw [value]
      exact roundSignificant_nonneg _ (by positivity)
    have small : quotient.value ≤ 8 / 10 := by
      rw [value]
      exact few.roundSignificant_le (by decide) (by linarith)
    exact takesCalls_series nonneg (by linarith)
  exact (takesCalls_reciprocal pi (by linarith) within).relax le_rfl (by norm_num)

/-- From nine tenths to one the doubled angle takes two more calls. -/
theorem takesCalls_of_nineTenths_le (large : 9 / 10 ≤ argument.value) (below : argument.value < 1) :
    TakesCalls sound library 3 (6 / 10 ^ 64) argument :=
  (takesCalls_double large below (by norm_num) fun _ => takesCalls_of_nine_le pi).relax le_rfl
    (by norm_num)

/-- The reciprocal of a number above one is at most one, also after rounding. -/
theorem takesCalls_of_one_lt (above : 1 < argument.value) :
    TakesCalls sound library 4 (12 / 10 ^ 64) argument := by
  have few : HasDigits internalPrecision 1 := ⟨.one, by decide +kernel, value_one⟩
  have reciprocal : 1 / argument.value ≤ 1 := by
    rw [div_le_one (by linarith)]
    exact above.le
  have within (quotient : Decimal)
      (value : quotient.value = roundSignificant internalPrecision (1 / argument.value)) :
      TakesCalls sound library 3 (6 / 10 ^ 64) quotient := by
    have nonneg : 0 ≤ quotient.value := by
      rw [value]
      exact roundSignificant_nonneg _ (by positivity)
    have small : quotient.value ≤ 1 := by
      rw [value]
      exact few.roundSignificant_le (by decide) reciprocal
    rcases small.eq_or_lt with one | below
    · exact (takesCalls_one pi one).relax (by decide) (by norm_num)
    rcases lt_or_ge quotient.value (9 / 10) with reached | large
    · exact (takesCalls_series nonneg reached).relax (by decide) (by norm_num)
    · exact takesCalls_of_nineTenths_le pi large below
  exact (takesCalls_reciprocal pi above within).relax le_rfl (by norm_num)

/-- Arguments that are not negative take four calls at most. -/
theorem takesCalls_of_nonneg (nonneg : 0 ≤ argument.value) :
    TakesCalls sound library 4 (12 / 10 ^ 64) argument := by
  rcases lt_trichotomy argument.value 1 with below | one | above
  · rcases lt_or_ge argument.value (9 / 10) with small | large
    · exact (takesCalls_series nonneg small).relax (by decide) (by norm_num)
    · exact (takesCalls_of_nineTenths_le pi large below).relax (by decide) (by norm_num)
  · exact (takesCalls_one pi one).relax (by decide) (by norm_num)
  · exact takesCalls_of_one_lt pi above

/-- Five calls are enough for every number. -/
theorem takesCalls (argument : Decimal) : TakesCalls sound library 5 (12 / 10 ^ 64) argument := by
  rcases lt_or_ge argument.value 0 with negative | nonneg
  · refine .neg negative (takesCalls_of_nonneg pi ?_)
    rw [value_neg]
    linarith
  · exact (takesCalls_of_nonneg pi nonneg).relax (by decide) le_rfl

end

end

/-- The arctangent of every number is worked out to 62 places, in five calls at most one inside
the other.  Where the angle is doubled the divisor is not zero, and where the series begins it
ends. -/
theorem arctan_accurate (kind : NumberKind) (argument : Decimal) :
    ∃ angle : Decimal,
      Gives (arctan (registry.library kind) (.precise argument)) (.precise angle) ∧
      |(angle.value : ℝ) - Real.arctan argument.value| ≤ 2 * 10 ^ (-63 : Int) ∧
      Gives (arctanWithin (registry.library kind) 5 (.precise argument)) (.precise angle) ∧
      (∀ more, arctanWithin (registry.library kind) (5 + more) (.precise argument) =
        arctanWithin (registry.library kind) 5 (.precise argument)) ∧
      (∀ reached : Decimal, 9 / 10 ≤ reached.value → reached.value < 1 →
        (Decimal.one.sub (reached.mul reached)).value ≠ 0) ∧
      (∀ reached : Decimal, 0 ≤ reached.value → reached.value < 9 / 10 →
        ∃ sum : Decimal, Gives (arctangentSeries (.precise reached)) (.precise sum)) := by
  have pi : Completes (registry.Keeps Caches.AreTables) ((registry.library kind).pi .precise)
      (· = .precise piDigits) := completes_pi
  have filled (caches : Caches) (fills : Fills caches) := fills.keeps
  have within := takesCalls pi argument
  obtain ⟨_, ⟨angle, rfl, close⟩, completes⟩ := within.completes.settle
  have limited : CompletesWithin (registry.Keeps Caches.AreTables)
      (fun depth => arctanWithin (registry.library kind) depth (.precise argument)) 5
      (· = .precise angle) :=
    ⟨completes, within.settled⟩
  obtain ⟨_, rfl, gives⟩ := gives_of_sound filled limited.withLimit
  obtain ⟨_, rfl, givesWithin⟩ := gives_of_sound filled completes
  refine ⟨angle, gives, close.trans (by norm_num), givesWithin, within.settled,
    fun _ large below => (one_sub_square_pos large below).ne', fun reached nonneg small => ?_⟩
  obtain ⟨_, ⟨sum, rfl, -⟩, givesSum⟩ :=
    gives_of_sound filled (completes_arctangentSeries nonneg small)
  exact ⟨sum, givesSum⟩

/-- A number that takes all five calls: it is negative, its size is above one, the reciprocal of
that is doubled, and what comes of it is large. -/
theorem arctan_accurate_deep :
    9 / 10 ≤ (⟨95, 2⟩ : Decimal).value ∧ (⟨95, 2⟩ : Decimal).value < 1 ∧
      0 ≤ (⟨5, 2⟩ : Decimal).value ∧ (⟨5, 2⟩ : Decimal).value < 9 / 10 ∧
      ∃ angle sum : Decimal,
        Gives (arctan (registry.library .precise) (.precise ⟨-105, 2⟩)) (.precise angle) ∧
        |(angle.value : ℝ) - Real.arctan (-1.05)| ≤ 2 * 10 ^ (-63 : Int) ∧
        Gives (arctanWithin (registry.library .precise) 5 (.precise ⟨-105, 2⟩)) (.precise angle) ∧
        (Decimal.one.sub ((⟨95, 2⟩ : Decimal).mul ⟨95, 2⟩)).value ≠ 0 ∧
        Gives (arctangentSeries (.precise ⟨5, 2⟩)) (.precise sum) := by
  have value : (⟨-105, 2⟩ : Decimal).value = -1.05 := by norm_num [value_mk]
  have large : 9 / 10 ≤ (⟨95, 2⟩ : Decimal).value := by norm_num [value_mk]
  have below : (⟨95, 2⟩ : Decimal).value < 1 := by norm_num [value_mk]
  have nonneg : 0 ≤ (⟨5, 2⟩ : Decimal).value := by norm_num [value_mk]
  have small : (⟨5, 2⟩ : Decimal).value < 9 / 10 := by norm_num [value_mk]
  obtain ⟨angle, gives, close, within, -, divisor, series⟩ := arctan_accurate .precise ⟨-105, 2⟩
  obtain ⟨sum, ends⟩ := series ⟨5, 2⟩ nonneg small
  rw [value] at close
  push_cast at close
  exact ⟨large, below, nonneg, small, angle, sum, gives, close, within, divisor _ large below, ends⟩

end Trigonometry
end Reckoner
