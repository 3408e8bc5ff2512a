import Reckoner.Number.Decimal
import Reckoner.Proofs.Number.Value

/-!
# The order of shortest decimals

The shortest decimal of a positive number lies in the neighbourhood of the number.  The
neighbourhoods of different numbers are apart: where one ends the next one begins, and of two
neighbours only the one with the even significand has the decimal in between.  So shortest
decimals rise with the bits that they are made from, and numbers are in the order of their
decimals, but for the two zeros.
-/

namespace Reckoner
namespace Binary64

open Decimal (pow_ten_pos)

/-! ## Neighbourhoods -/

theorem pow_two_pos (exponent : Int) : (0 : ℚ) < 2 ^ exponent :=
  zpow_pos (by norm_num) exponent

/-- A power with an integer exponent as a quotient of powers of natural ones. -/
theorem zpow_mul_pow_toNat_neg {base : ℚ} (nonzero : base ≠ 0) (exponent : Int) :
    base ^ exponent * base ^ (-exponent).toNat = base ^ exponent.toNat := by
  rw [← zpow_natCast, ← zpow_natCast, ← zpow_add₀ nonzero]
  congr 1
  omega

namespace Neighbourhood

variable {neighbours : Neighbourhood} {place : Int}

/-- The size of a number of units. -/
def bound (neighbours : Neighbourhood) (units : Nat) : ℚ :=
  units * 2 ^ neighbours.exponent

/-- The sizes that read back as the number. -/
def Holds (neighbours : Neighbourhood) (size : ℚ) : Prop :=
  if neighbours.closed then
    neighbours.bound neighbours.low ≤ size ∧ size ≤ neighbours.bound neighbours.high
  else neighbours.bound neighbours.low < size ∧ size < neighbours.bound neighbours.high

/-- What makes both a unit and ten to the power of `place` an integer. -/
def scale (neighbours : Neighbourhood) (place : Int) : ℚ :=
  2 ^ (-neighbours.exponent).toNat * 10 ^ (-place).toNat

theorem scale_pos (neighbours : Neighbourhood) (place : Int) : 0 < neighbours.scale place := by
  unfold scale
  positivity

theorem scaled_eq (neighbours : Neighbourhood) (place : Int) (units : Nat) :
    (neighbours.scaled place units : ℚ) = neighbours.bound units * neighbours.scale place := by
  have whole := zpow_mul_pow_toNat_neg (by norm_num : (2 : ℚ) ≠ 0) neighbours.exponent
  rw [scaled, bound, scale]
  push_cast [Nat.pow_eq]
  rw [← whole]
  ring

theorem grid_eq (neighbours : Neighbourhood) (place : Int) :
    (neighbours.grid place : ℚ) = 10 ^ place * neighbours.scale place := by
  have whole := zpow_mul_pow_toNat_neg (by norm_num : (10 : ℚ) ≠ 0) place
  rw [grid, scale]
  push_cast [Nat.pow_eq]
  rw [← whole]
  ring

/-- Units are compared with multiples of a power of ten on a common scale. -/
theorem scaled_le_iff {units digits : Nat} :
    neighbours.scaled place units ≤ digits * neighbours.grid place ↔
      neighbours.bound units ≤ digits * 10 ^ place := by
  rw [← Nat.cast_le (α := ℚ), Nat.cast_mul, scaled_eq, grid_eq, ← mul_assoc,
    mul_le_mul_iff_of_pos_right (neighbours.scale_pos place)]

/-- The integers compare as the bound and the number on the grid do. -/
theorem le_scaled_iff {units digits : Nat} :
    digits * neighbours.grid place ≤ neighbours.scaled place units ↔
      digits * 10 ^ place ≤ neighbours.bound units := by
  rw [← Nat.cast_le (α := ℚ), Nat.cast_mul, scaled_eq, grid_eq, ← mul_assoc,
    mul_le_mul_iff_of_pos_right (neighbours.scale_pos place)]

/-- The test for reading back is that the neighbourhood holds the number. -/
theorem readsBack_iff {digits : Nat} :
    neighbours.readsBack place digits = true ↔ neighbours.Holds (digits * 10 ^ place) := by
  unfold readsBack Holds
  split
  next =>
    rw [Bool.and_eq_true, decide_eq_true_eq, decide_eq_true_eq, scaled_le_iff, le_scaled_iff]
  next =>
    rw [Bool.and_eq_true, decide_eq_true_eq, decide_eq_true_eq, ← not_le, ← not_le, ← not_le,
      ← not_le, scaled_le_iff, le_scaled_iff]

/-- What is found on a grid is within the neighbourhood. -/
theorem holds_of_onGrid?_eq_some
    {digits : Nat}
    (found : neighbours.onGrid? place = some digits) :
    neighbours.Holds (digits * 10 ^ place) := by
  rw [← readsBack_iff]
  unfold onGrid? at found
  dsimp only at found
  split at found
  next first second =>
    cases found
    split
    · exact first
    · exact second
  next first _ =>
    cases found
    exact first
  next _ second =>
    cases found
    exact second
  next => cases found

/-- The grid point below the number reads back if the grid is no coarser than the distance
between the number and its lower bound. -/
theorem onGrid?_isSome
    (low : neighbours.low < neighbours.value)
    (high : neighbours.value < neighbours.high)
    (fine : (10 : ℚ) ^ place ≤ 2 ^ neighbours.exponent) :
    (neighbours.onGrid? place).isSome = true := by
  have grid : neighbours.grid place ≤ neighbours.scaled place 1 := by
    have both := mul_le_mul_of_nonneg_right fine (neighbours.scale_pos place).le
    rw [← Nat.cast_le (α := ℚ), scaled_eq, grid_eq, bound, Nat.cast_one, one_mul]
    exact both
  have positive : 0 < neighbours.grid place :=
    Nat.mul_pos (Nat.pow_pos (by decide)) (Nat.pow_pos (by decide))
  have unit : 0 < neighbours.scaled place 1 := positive.trans_le grid
  have linear (units : Nat) :
      neighbours.scaled place units = units * neighbours.scaled place 1 := by
    unfold scaled
    ring
  have lower : neighbours.scaled place neighbours.low + neighbours.scaled place 1 ≤
      neighbours.scaled place neighbours.value := by
    rw [linear neighbours.low, linear neighbours.value, ← Nat.succ_mul]
    exact Nat.mul_le_mul_right _ low
  have upper :
      neighbours.scaled place neighbours.value < neighbours.scaled place neighbours.high := by
    rw [linear neighbours.value, linear neighbours.high]
    exact Nat.mul_lt_mul_of_pos_right high unit
  have reads : neighbours.readsBack place
      (neighbours.scaled place neighbours.value / neighbours.grid place) = true := by
    have division := Nat.div_add_mod' (neighbours.scaled place neighbours.value)
      (neighbours.grid place)
    have rest := Nat.mod_lt (neighbours.scaled place neighbours.value) positive
    unfold readsBack
    split <;> rw [Bool.and_eq_true, decide_eq_true_eq, decide_eq_true_eq] <;> omega
  unfold onGrid?
  dsimp only
  rw [reads]
  cases neighbours.readsBack place
    (neighbours.scaled place neighbours.value / neighbours.grid place + 1) <;> rfl

/-- The search ends with what the first grid in reach on which something reads back has. -/
theorem holds_search
    {steps finer : Nat}
    (reached : finer < steps)
    (fine : (neighbours.onGrid? (place - finer)).isSome = true) :
    neighbours.Holds
      ((neighbours.search place steps).1 * 10 ^ (neighbours.search place steps).2) := by
  induction steps generalizing place finer with
  | zero => exact absurd reached (Nat.not_lt_zero finer)
  | succ steps hypothesis =>
      unfold search
      split
      next digits found => exact holds_of_onGrid?_eq_some found
      next missing =>
        cases finer with
        | zero =>
            rw [Nat.cast_zero, sub_zero, missing] at fine
            cases fine
        | succ finer =>
            refine hypothesis (Nat.lt_of_succ_lt_succ reached) ?_
            rw [sub_sub, add_comm 1, ← Nat.cast_succ]
            exact fine

end Neighbourhood

/-- Dropping trailing zeros keeps what the digits denote at their place. -/
theorem value_dropZeros (digits : Nat) (place : Int) :
    ((dropZeros digits place).1 : ℚ) * 10 ^ (dropZeros digits place).2 = digits * 10 ^ place := by
  fun_induction dropZeros digits place with
  | case1 digits place divides hypothesis =>
      have split : (digits : ℚ) = (digits / 10 : Nat) * 10 := by
        have divided : digits = digits / 10 * 10 := by omega
        exact_mod_cast divided
      rw [hypothesis, Decimal.pow_ten_add, zpow_one, split]
      ring
  | case2 => rfl

/-! ## Where neighbourhoods meet -/

variable {number first second : Binary64}

/-- The neighbourhood of the number of a magnitude. -/
def around (magnitude : Nat) : Neighbourhood :=
  let field := magnitude / exponentWeight
  let fraction := magnitude % exponentWeight
  let significand := if field = 0 then fraction else fraction + exponentWeight
  let below := if fraction = 0 ∧ 1 < field then 1 else 2
  ⟨4 * significand - below, 4 * significand, 4 * significand + 2,
    ((max field 1 : Nat) : Int) - 1 + leastExponent - 2, significand % 2 == 0⟩

theorem neighbourhood_eq (number : Binary64) : number.neighbourhood = around number.magnitude := rfl

/-- The neighbourhood of a double has its ends when the significand is even. -/
theorem closed_around (magnitude : Nat) :
    (around magnitude).closed = true ↔ magnitude % 2 = 0 := by
  rw [around, beq_iff_eq, exponentWeight]
  split <;> omega

/-- The lower end of a neighbourhood is below the double. -/
theorem low_lt_value (magnitude : Nat) :
    (around (magnitude + 1)).low < (around (magnitude + 1)).value := by
  unfold around exponentWeight
  dsimp only
  split <;> split <;> omega

/-- The upper end of a neighbourhood is above the double. -/
theorem value_lt_high (magnitude : Nat) :
    (around magnitude).value < (around magnitude).high :=
  Nat.lt_add_of_pos_right (by decide)

/-- The upper end of the neighbourhood of a magnitude. -/
def boundary (magnitude : Nat) : ℚ :=
  (around magnitude).bound (around magnitude).high

/-- After the last fraction the next exponent begins. -/
theorem succ_fields (magnitude : Nat) :
    (magnitude + 1) / exponentWeight = magnitude / exponentWeight ∧
        (magnitude + 1) % exponentWeight = magnitude % exponentWeight + 1 ∨
      magnitude % exponentWeight + 1 = exponentWeight ∧
        (magnitude + 1) / exponentWeight = magnitude / exponentWeight + 1 ∧
        (magnitude + 1) % exponentWeight = 0 := by
  unfold exponentWeight
  omega

/-- Where one neighbourhood ends the next one begins. -/
theorem bound_low_succ (magnitude : Nat) :
    (around (magnitude + 1)).bound (around (magnitude + 1)).low = boundary magnitude := by
  have weight : 0 < exponentWeight := by decide
  unfold boundary Neighbourhood.bound around
  dsimp only
  rcases succ_fields magnitude with ⟨field, fraction⟩ | ⟨full, field, fraction⟩
  · have inside : ¬(magnitude % exponentWeight + 1 = 0 ∧ 1 < magnitude / exponentWeight) :=
      fun none => Nat.succ_ne_zero _ none.1
    rw [field, fraction, if_neg inside]
    congr 2
    split <;> omega
  · rw [field, fraction, if_neg (Nat.succ_ne_zero _), Nat.zero_add]
    rcases Nat.eq_zero_or_pos (magnitude / exponentWeight) with first | later
    · rw [first, if_pos rfl, if_neg fun second => Nat.lt_irrefl 1 second.2, Nat.zero_add,
        Nat.max_self, Nat.max_eq_right (Nat.zero_le 1)]
      congr 2
      omega
    · have double : ((4 * (magnitude % exponentWeight + exponentWeight) + 2 : Nat) : ℚ) =
          (4 * exponentWeight - 1 : Nat) * 2 := by
        have whole : 4 * (magnitude % exponentWeight + exponentWeight) + 2 =
            (4 * exponentWeight - 1) * 2 := by omega
        exact_mod_cast whole
      rw [if_pos ⟨rfl, Nat.lt_succ_of_le later⟩, if_neg later.ne', double,
        Nat.max_eq_left (Nat.succ_le_of_lt (Nat.succ_pos _)), Nat.max_eq_left later, mul_assoc,
        ← zpow_one_add₀ two_ne_zero]
      congr 2
      push_cast
      ring

/-- The boundaries between neighbouring doubles ascend. -/
theorem boundary_strictMono : StrictMono boundary := by
  refine strictMono_nat_of_lt_succ fun magnitude => ?_
  rw [← bound_low_succ]
  refine mul_lt_mul_of_pos_right (Nat.cast_lt.2 ?_) (pow_two_pos _)
  exact (low_lt_value magnitude).trans (value_lt_high _)

theorem boundary_pos (magnitude : Nat) : 0 < boundary magnitude :=
  mul_pos (Nat.cast_pos.2 (Nat.zero_lt_of_lt (value_lt_high magnitude))) (pow_two_pos _)

/-! ## The search reaches a grid that is fine enough -/

/-- A power of ten is below a power of two when its place is low enough for the exponent. -/
theorem pow_ten_le_pow_two
    {place exponent : Int}
    (above : 0 ≤ exponent → 10 * place ≤ 3 * exponent)
    (below : exponent < 0 → 13 * place ≤ 4 * exponent) :
    (10 : ℚ) ^ place ≤ 2 ^ exponent := by
  rcases lt_or_ge exponent 0 with negative | natural
  · obtain ⟨second, rfl⟩ : ∃ second : Nat, exponent = -second := ⟨exponent.natAbs, by omega⟩
    obtain ⟨first, rfl⟩ : ∃ first : Nat, place = -first := ⟨place.natAbs, by omega⟩
    have powers : 2 ^ second ≤ 10 ^ first :=
      pow_le_pow_of_slope (by decide) (by decide) (by decide : 2 ^ 13 ≤ 10 ^ 4) (by omega)
    rw [zpow_neg, zpow_neg, zpow_natCast, zpow_natCast]
    exact inv_anti₀ (by positivity) (by exact_mod_cast powers)
  · obtain ⟨second, rfl⟩ := Int.eq_ofNat_of_zero_le natural
    rcases le_total place 0 with small | large
    · calc (10 : ℚ) ^ place ≤ 1 := zpow_le_one_of_nonpos₀ (by norm_num) small
        _ ≤ 2 ^ (second : Int) := one_le_zpow₀ (by norm_num) natural
    · obtain ⟨first, rfl⟩ := Int.eq_ofNat_of_zero_le large
      have powers : 10 ^ first ≤ 2 ^ second :=
        pow_le_pow_of_slope (by decide) (by decide) (by decide : 10 ^ 3 ≤ 2 ^ 10) (by omega)
      rw [zpow_natCast, zpow_natCast]
      exact_mod_cast powers

theorem bitLength_le {value bits : Nat} (below : value < 2 ^ bits) : bitLength value ≤ bits := by
  unfold bitLength
  split
  next => exact Nat.zero_le bits
  next nonzero => exact (Nat.log2_lt nonzero).2 below

/-- The size of the shortest decimal of a number. -/
def size (number : Binary64) : ℚ :=
  number.shortest.1 * 10 ^ number.shortest.2

theorem size_of_isZero (zero : number.magnitude = 0) : number.size = 0 := by
  have same : number.shortest = (0, 0) := by
    rw [shortest, isZero, decide_eq_true zero, if_pos rfl]
  rw [size, same, Nat.cast_zero, zero_mul]

/-- The shortest decimal of a number reads back as the number. -/
theorem holds_size (finite : number.isFinite = true) (nonzero : number.magnitude ≠ 0) :
    (around number.magnitude).Holds number.size := by
  have field : number.magnitude / exponentWeight ≤ 2046 := by
    rw [isFinite, decide_eq_true_eq, infinityMagnitude] at finite
    exact Nat.le_of_lt_succ (Nat.div_lt_of_lt_mul (by rwa [Nat.mul_comm]))
  have bits : bitLength (around number.magnitude).value ≤ 55 := by
    refine bitLength_le ?_
    unfold around exponentWeight
    dsimp only
    split <;> omega
  have exponent : (around number.magnitude).exponent =
      ((max (number.magnitude / exponentWeight) 1 : Nat) : Int) - 1 + -1074 - 2 := rfl
  have fine : ((around number.magnitude).onGrid?
      ((around number.magnitude).coarsePlace - (39 : Nat))).isSome = true := by
    refine Neighbourhood.onGrid?_isSome ?_ (value_lt_high _) (pow_ten_le_pow_two ?_ ?_)
    · obtain ⟨below, above⟩ := Nat.exists_eq_succ_of_ne_zero nonzero
      rw [above]
      exact low_lt_value below
    all_goals
      rw [Neighbourhood.coarsePlace]
      omega
  have same : number.shortest =
      dropZeros ((around number.magnitude).search (around number.magnitude).coarsePlace 40).1
        ((around number.magnitude).search (around number.magnitude).coarsePlace 40).2 := by
    rw [shortest, isZero, decide_eq_false nonzero, if_neg Bool.false_ne_true, neighbourhood_eq]
  rw [size, same, value_dropZeros]
  exact Neighbourhood.holds_search (by decide : 39 < 40) fine

/-! ## The order -/

/-- What a neighbourhood holds lies between the boundaries of the double. -/
theorem Neighbourhood.Holds.between
    {magnitude : Nat}
    {size : ℚ}
    (holds : (around (magnitude + 1)).Holds size) :
    boundary magnitude ≤ size ∧ size ≤ boundary (magnitude + 1) := by
  rw [Neighbourhood.Holds, bound_low_succ] at holds
  split at holds
  · exact holds
  · exact ⟨holds.1.le, holds.2.le⟩

/-- An odd magnitude has the ends of its neighbourhood for itself alone. -/
theorem Neighbourhood.Holds.inside
    {magnitude : Nat}
    {size : ℚ}
    (holds : (around (magnitude + 1)).Holds size)
    (even : magnitude % 2 = 0) :
    boundary magnitude < size ∧ size < boundary (magnitude + 1) := by
  have opened : ¬(around (magnitude + 1)).closed = true := by
    rw [closed_around]
    omega
  rw [Neighbourhood.Holds, bound_low_succ, if_neg opened] at holds
  exact holds

/-- Shortest decimals rise with the bits. -/
theorem size_lt_size
    (finite : first.isFinite = true)
    (otherFinite : second.isFinite = true)
    (less : first.magnitude < second.magnitude) :
    first.size < second.size := by
  obtain ⟨upper, above⟩ := Nat.exists_eq_succ_of_ne_zero (Nat.ne_of_gt (Nat.zero_lt_of_lt less))
  have right := holds_size otherFinite (above ▸ Nat.succ_ne_zero upper)
  rw [above] at right less
  rcases Nat.eq_zero_or_eq_succ_pred first.magnitude with zero | positive
  · rw [size_of_isZero zero]
    exact (boundary_pos upper).trans_le right.between.1
  · generalize first.magnitude.pred = lower at positive
    have left := holds_size finite (positive ▸ Nat.succ_ne_zero lower)
    rw [positive] at left less
    rcases Nat.lt_or_eq_of_le (Nat.le_of_lt_succ less) with apart | rfl
    · exact left.between.2.trans_lt ((boundary_strictMono apart).trans_le right.between.1)
    · -- of two neighbours one has an odd magnitude
      rcases Nat.mod_two_eq_zero_or_one lower with even | odd
      · exact (left.inside even).2.trans_le right.between.1
      · exact left.between.2.trans_lt (right.inside (by omega)).1

theorem size_eq_of_magnitude_eq (same : first.magnitude = second.magnitude) :
    first.size = second.size := by
  rw [size, size, shortest, shortest, isZero, isZero, neighbourhood_eq, neighbourhood_eq, same]

/-- Finite doubles are ordered as their magnitudes are. -/
theorem size_lt_size_iff (finite : first.isFinite = true) (otherFinite : second.isFinite = true) :
    first.size < second.size ↔ first.magnitude < second.magnitude := by
  refine ⟨fun less => ?_, size_lt_size finite otherFinite⟩
  rcases lt_trichotomy first.magnitude second.magnitude with below | same | above
  · exact below
  · exact absurd (size_eq_of_magnitude_eq same) less.ne
  · exact absurd less (size_lt_size otherFinite finite above).asymm

theorem size_pos_iff (finite : number.isFinite = true) :
    0 < number.size ↔ 0 < number.magnitude := by
  have zero : (zero false).size = 0 := size_of_isZero rfl
  rw [← zero]
  exact size_lt_size_iff rfl finite

theorem size_nonneg (number : Binary64) : 0 ≤ number.size :=
  mul_nonneg (Nat.cast_nonneg _) (pow_ten_pos _).le

/-- A floating point number stands for its shortest decimal. -/
theorem value_ofFinite (number : Binary64) :
    (Decimal.ofFinite number).value = if number.isNegative then -number.size else number.size := by
  have unsigned (digits : Nat) (place : Int) :
      Decimal.value (if 0 ≤ place then ⟨digits * Nat.pow 10 place.toNat, 0⟩ else ⟨digits, -place⟩) =
        digits * 10 ^ place := by
    split
    next natural =>
      obtain ⟨places, rfl⟩ := Int.eq_ofNat_of_zero_le natural
      rw [Decimal.value_mk, neg_zero, zpow_zero, mul_one, Int.toNat_natCast, zpow_natCast]
      push_cast [Nat.pow_eq]
      rfl
    next => rw [Decimal.value_mk, neg_neg, Int.cast_natCast]
  unfold Decimal.ofFinite
  dsimp only
  split
  · rw [Decimal.value_neg, unsigned, size]
  · rw [unsigned, size]

theorem eq_zero_iff {negative : Bool} :
    number = zero negative ↔ number.magnitude = 0 ∧ number.isNegative = negative := by
  constructor
  · rintro rfl
    cases negative <;> exact ⟨rfl, rfl⟩
  · rintro ⟨none, rfl⟩
    have bounded := number.bits.toNat_lt
    have bits : number.bits.toNat = if number.isNegative then signWeight + 0 else 0 := by
      unfold magnitude signWeight at none
      unfold isNegative signWeight
      split
      next negative =>
        have least := of_decide_eq_true negative
        omega
      next natural =>
        have below := mt decide_eq_true natural
        omega
    rw [zero, ofMagnitude, ← bits, UInt64.ofNat_toNat]

/-- Numbers are in the order of their shortest decimals, except that the negative zero comes
before the positive one. -/
theorem order_eq_lt_iff (finite : first.isFinite = true) (otherFinite : second.isFinite = true) :
    first.order second = .lt ↔
      (Decimal.ofFinite first).value < (Decimal.ofFinite second).value ∨
        first = zero true ∧ second = zero false := by
  have positive := size_pos_iff finite
  have otherPositive := size_pos_iff otherFinite
  have nonneg := size_nonneg first
  have otherNonneg := size_nonneg second
  rw [order, compare_lt_iff_lt, rank, rank, value_ofFinite, value_ofFinite,
    eq_zero_iff, eq_zero_iff]
  cases first.isNegative <;> cases second.isNegative
  case false.false =>
    simp only [Bool.false_eq_true, if_false, and_false, false_and, or_false, Nat.cast_lt]
    exact (size_lt_size_iff finite otherFinite).symm
  case true.true =>
    simp only [if_true, reduceCtorEq, and_false, or_false, neg_lt_neg_iff,
      size_lt_size_iff otherFinite finite]
    omega
  case false.true =>
    simp only [Bool.false_eq_true, if_false, if_true, and_false, false_and, or_false]
    constructor
    · omega
    · intro less
      linarith
  case true.false =>
    simp only [Bool.false_eq_true, if_false, if_true, and_true]
    have ahead : -(first.magnitude : Int) - 1 < second.magnitude := by omega
    refine iff_of_true ahead ?_
    rcases Nat.eq_zero_or_pos first.magnitude with none | some
    · rcases Nat.eq_zero_or_pos second.magnitude with other | other
      · exact .inr ⟨none, other⟩
      · exact .inl (by linarith [otherPositive.2 other])
    · exact .inl (by linarith [positive.2 some])

end Binary64
end Reckoner
