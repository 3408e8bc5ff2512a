import Reckoner.Proofs.Standard.Completion
import Reckoner.Proofs.Standard.Precise
import Reckoner.Standard.Combinatorics

/-!
# Selections of precise numbers

The falling product has after every round multiplied as many factors as are not missing any more,
all of them exactly.  So the ordered selections are counted exactly, and the unordered ones, for
which one quotient is taken, as exactly as a quotient can be.
-/

namespace Reckoner
namespace Combinatorics

open Run Elementary

/-- A falling product that lacks a number of its factors. -/
def IsFalling (things picks missing : Nat) (product : FallingProduct) : Prop :=
  missing ≤ picks ∧ ∃ total factor remaining : Decimal,
    product = ⟨.precise total, .precise factor, .precise remaining⟩ ∧
    total.value = things.descFactorial (picks - missing) ∧
    factor.value = things - (picks - missing : Nat) ∧
    remaining.value = missing

/-- Before the first factor the product is one, and all factors are missing. -/
theorem isFalling_start
    {available chosen : Decimal}
    {things picks : Nat}
    (valueAvailable : available.value = things)
    (valueChosen : chosen.value = picks) :
    IsFalling things picks picks ⟨.precise .one, .precise available, .precise chosen⟩ := by
  refine ⟨le_rfl, .one, available, chosen, rfl, ?_, ?_, valueChosen⟩
  · rw [Nat.sub_self, Nat.descFactorial_zero, Nat.cast_one, Decimal.value_one]
  · rw [Nat.sub_self, Nat.cast_zero, sub_zero, valueAvailable]

/-- Each step multiplies by the next factor, until none is missing. -/
theorem completes_fallingStep
    {sound : Caches → Prop}
    {things picks missing : Nat}
    {product : FallingProduct}
    (enough : picks ≤ things)
    (falling : IsFalling things picks missing product) :
    Completes sound (fallingStep (.precise .one) product)
      (Advances (IsFalling things picks) (fun result => ∃ count : Decimal, result = .precise count ∧
        count.value = things.descFactorial picks) missing) := by
  obtain ⟨bounded, total, factor, remaining, rfl, valueTotal, valueFactor, valueRemaining⟩ :=
    falling
  unfold fallingStep
  cases missing with
  | zero =>
      have through : ¬0 < (Number.precise remaining).signum := by
        rw [Number.signum, Decimal.signum_pos_iff, valueRemaining, Nat.cast_zero]
        exact lt_irrefl 0
      rw [if_neg through]
      exact .pure ⟨total, rfl, valueTotal⟩
  | succ fewer =>
      have more : 0 < (Number.precise remaining).signum := by
        rw [Number.signum, Decimal.signum_pos_iff, valueRemaining]
        exact_mod_cast fewer.succ_pos
      have taken : picks - fewer = picks - (fewer + 1) + 1 := by omega
      rw [if_pos more]
      refine Completes.check.bind fun _ _ => .pure ⟨fewer, fewer.lt_succ_self, by omega,
        total.mul factor, factor.sub .one, remaining.sub .one, rfl, ?_, ?_, ?_⟩
      · rw [Decimal.value_mul, valueTotal, valueFactor, taken, Nat.descFactorial_succ, Nat.cast_mul,
          ← Nat.cast_sub (by omega), mul_comm]
      · rw [Decimal.value_sub, valueFactor, Decimal.value_one, taken]
        push_cast
        ring
      · rw [Decimal.value_sub, valueRemaining, Decimal.value_one]
        push_cast
        ring

/-- How many ordered selections there are. -/
def ordered (things picks : Int) : Nat :=
  if 0 ≤ picks ∧ picks ≤ things then things.toNat.descFactorial picks.toNat else 0

/-- How many unordered selections there are. -/
def unordered (things picks : Int) : Nat :=
  if 0 ≤ picks ∧ picks ≤ things then things.toNat.choose picks.toNat else 0

/-- There are no ordered selections exactly if more is to be picked than there is, or less than
nothing. -/
theorem ordered_eq_zero_iff {things picks : Int} :
    ordered things picks = 0 ↔ ¬(0 ≤ picks ∧ picks ≤ things) := by
  unfold ordered
  split
  next counted =>
    rw [Nat.descFactorial_eq_zero_iff_lt]
    omega
  next none => exact iff_of_true rfl none

open Nat in
/-- Each selection can be put in order in as many ways as it has permutations. -/
theorem ordered_eq_mul (things picks : Int) :
    ordered things picks = picks.toNat ! * unordered things picks := by
  unfold ordered unordered
  split
  next => exact Nat.descFactorial_eq_factorial_mul_choose _ _
  next => exact (Nat.mul_zero _).symm

section

variable {available chosen : Decimal} {things picks : Int}
  (valueAvailable : available.value = things) (valueChosen : chosen.value = picks)

include valueAvailable valueChosen

/-- There is nothing to count if more are chosen than there are, or if a number is negative. -/
theorem refuses_iff :
    (decide (available.value < chosen.value) || decide ((Number.precise available).signum < 0) ||
      decide ((Number.precise chosen).signum < 0) ||
      ((Number.precise available).isZero && !(Number.precise chosen).isZero)) = true ↔
    ¬(0 ≤ picks ∧ picks ≤ things) := by
  simp only [Bool.or_eq_true, Bool.and_eq_true, Bool.not_eq_true', decide_eq_true_iff,
    decide_eq_false_iff_not, Number.signum, Number.isZero_precise, Decimal.signum_neg_iff,
    valueAvailable, valueChosen, Int.cast_lt, Int.cast_lt_zero, Int.cast_eq_zero]
  omega

/-- The permutations of two integers complete with their exact number. -/
theorem completes_permutations {sound : Caches → Prop} :
    Completes sound (permutations (.precise available) (.precise chosen)) fun result =>
      ∃ count : Decimal, result = .precise count ∧ count.value = ordered things picks := by
  unfold permutations
  simp only [exceeds_precise, lift_ok, pure_bind, refuses_iff valueAvailable valueChosen]
  split
  next refused =>
    refine .pure ⟨.zero, rfl, ?_⟩
    rw [Decimal.value_zero, ordered_eq_zero_iff.2 refused, Nat.cast_zero]
  next counted =>
    rw [not_not] at counted
    obtain ⟨all, rfl⟩ := Int.eq_ofNat_of_zero_le (counted.1.trans counted.2)
    obtain ⟨some, rfl⟩ := Int.eq_ofNat_of_zero_le counted.1
    rw [ordered, if_pos counted, Int.toNat_natCast, Int.toNat_natCast]
    rw [Int.cast_natCast] at valueAvailable valueChosen
    exact .repeatUntil (IsFalling all some)
      (fun _ _ => completes_fallingStep (Int.ofNat_le.1 counted.2))
      (isFalling_start valueAvailable valueChosen)

open Nat in
/-- The combinations of two integers complete with their number, rounded once as a quotient. -/
theorem completes_combinations (small : picks ≤ 0x7fffffffffffffff) :
    Completes Caches.AreTables (combinations (.precise available) (.precise chosen)) fun result =>
      ∃ count : Decimal, result = .precise count ∧
        count.value = roundSignificant Decimal.internalPrecision (unordered things picks) := by
  unfold combinations
  refine (completes_permutations valueAvailable valueChosen).bind ?_
  rintro _ ⟨count, rfl, valueCount⟩
  by_cases counted : 0 ≤ picks ∧ picks ≤ things
  · have some : ¬(Number.precise count).isZero = true := by
      rw [Number.isZero_precise, decide_eq_true_iff, valueCount, Nat.cast_eq_zero,
        ordered_eq_zero_iff, not_not]
      exact counted
    have size : toNat? (.precise chosen) = Option.some picks.toNat := by
      have whole : (Number.precise chosen).toInt64? = Option.some picks :=
        Decimal.toInt64?_of_value_eq valueChosen (by omega) (by omega)
      rw [toNat?, whole]
      exact if_pos counted.1
    rw [if_neg some]
    simp only [size]
    refine (Standard.completes_factorial _).bind ?_
    rintro _ rfl
    have factors :
        ((picks.toNat ! : Nat) : ℚ) ≠ 0 := Nat.cast_ne_zero.2 picks.toNat.factorial_ne_zero
    have nonzero : (Decimal.ofInt (picks.toNat ! : Nat)).value ≠ 0 := by
      rwa [Decimal.value_ofInt, Int.cast_natCast]
    obtain ⟨choices, divides, valueChoices⟩ := Number.div_precise count nonzero
    rw [divides, lift_ok]
    refine .pure ⟨choices, rfl, ?_⟩
    rw [valueChoices, valueCount, Decimal.value_ofInt, ordered_eq_mul, Nat.cast_mul,
      Int.cast_natCast, mul_div_cancel_left₀ _ factors]
  · have none : (Number.precise count).isZero = true := by
      rw [Number.isZero_precise, decide_eq_true_iff, valueCount, Nat.cast_eq_zero]
      exact ordered_eq_zero_iff.2 counted
    rw [if_pos none]
    refine .pure ⟨count, rfl, ?_⟩
    rw [valueCount, ordered_eq_zero_iff.2 counted, unordered, if_neg counted, Nat.cast_zero,
      roundSignificant_zero]

end

/-- The ordered selections are counted exactly, and the unordered ones to as many digits as are
kept, which is exactly if these suffice.  There are none unless the number of things is at least
that of the chosen ones, and that is not negative. -/
theorem selections_counted
    {available chosen : Decimal}
    {things picks : Int}
    (valueAvailable : available.value = things)
    (valueChosen : chosen.value = picks)
    (small : picks ≤ 2 ^ 63 - 1) :
    ∃ arrangements choices : Decimal,
      Standard.Gives (permutations (.precise available) (.precise chosen)) (.precise arrangements) ∧
      Standard.Gives (combinations (.precise available) (.precise chosen)) (.precise choices) ∧
      (0 ≤ picks ∧ picks ≤ things →
        arrangements.value = things.toNat.descFactorial picks.toNat ∧
        choices.value = roundSignificant 65 (things.toNat.choose picks.toNat) ∧
        (digitCount (things.toNat.choose picks.toNat) ≤ 65 →
          choices.value = things.toNat.choose picks.toNat)) ∧
      (¬(0 ≤ picks ∧ picks ≤ things) → arrangements.value = 0 ∧ choices.value = 0) := by
  obtain ⟨_, ⟨arrangements, rfl, valueArrangements⟩, permutes⟩ :=
    Standard.gives_of_completes (completes_permutations valueAvailable valueChosen)
  obtain ⟨_, ⟨choices, rfl, valueChoices⟩, combines⟩ :=
    Standard.gives_of_completes (completes_combinations valueAvailable valueChosen (by omega))
  refine ⟨arrangements, choices, permutes, combines, fun counted => ?_, fun none => ?_⟩
  · rw [ordered, if_pos counted] at valueArrangements
    rw [unordered, if_pos counted] at valueChoices
    refine ⟨valueArrangements, valueChoices, fun few => ?_⟩
    rw [valueChoices, ← Int.cast_natCast]
    exact roundSignificant_intCast_of_le few
  · rw [ordered, if_neg none, Nat.cast_zero] at valueArrangements
    rw [unordered, if_neg none, Nat.cast_zero, roundSignificant_zero] at valueChoices
    exact ⟨valueArrangements, valueChoices⟩

/-- The hands of five cards out of fifty-two, in order and not in order. -/
theorem selections_counted_cards :
    (⟨520, 1⟩ : Decimal).value = (52 : Int) ∧ (⟨5, 0⟩ : Decimal).value = (5 : Int) ∧
      ∃ arrangements choices : Decimal,
        Standard.Gives (permutations (.precise ⟨520, 1⟩) (.precise ⟨5, 0⟩))
          (.precise arrangements) ∧
        Standard.Gives (combinations (.precise ⟨520, 1⟩) (.precise ⟨5, 0⟩)) (.precise choices) ∧
        arrangements.value = 311875200 ∧ choices.value = 2598960 := by
  have cards : (⟨520, 1⟩ : Decimal).value = (52 : Int) := by
    norm_num [Decimal.value]
  have hand : (⟨5, 0⟩ : Decimal).value = (5 : Int) := by
    norm_num [Decimal.value]
  have choose : (52 : Int).toNat.choose (5 : Int).toNat = 2598960 := by decide +kernel
  have falling : (52 : Int).toNat.descFactorial (5 : Int).toNat = 311875200 := by decide +kernel
  obtain ⟨arrangements, choices, permutes, combines, counted, -⟩ :=
    selections_counted cards hand (by decide)
  obtain ⟨valueArrangements, -, exact⟩ := counted (by decide)
  rw [choose] at exact
  rw [falling] at valueArrangements
  exact ⟨cards, hand, arrangements, choices, permutes, combines, valueArrangements,
    exact (by decide +kernel)⟩

end Combinatorics
end Reckoner
