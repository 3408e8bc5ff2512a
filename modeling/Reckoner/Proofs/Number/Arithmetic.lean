import Reckoner.Number.Fast
import Reckoner.Proofs.Number.Nearest

/-!
# Exact results of floating point operations

The sum, the difference, the product and the quotient of finite numbers are what the exact
results round to.  A product is as far from its factor as the other factor is from one, so that
repeated products and quotients leave every bound behind.
-/

namespace Reckoner
namespace Binary64

variable {first second number : Binary64} {negative : Bool} {size : ℚ}

/-! ## Kinds of numbers -/

/-- The finite doubles are the ones below the infinities in size. -/
theorem isFinite_iff : number.isFinite = true ↔ number.magnitude < infinityMagnitude :=
  decide_eq_true_iff

/-- Every double up to the infinities is a number. -/
theorem isNaN_eq_false_iff : number.isNaN = false ↔ number.magnitude ≤ infinityMagnitude := by
  rw [isNaN, decide_eq_false_iff_not, not_lt]

theorem isInfinite_iff : number.isInfinite = true ↔ number.magnitude = infinityMagnitude :=
  decide_eq_true_iff

theorem isZero_iff : number.isZero = true ↔ number.magnitude = 0 :=
  decide_eq_true_iff

/-- A number is made of its sign and its magnitude. -/
theorem ofMagnitude_magnitude (number : Binary64) :
    ofMagnitude number.isNegative number.magnitude = number := by
  have bounded := number.bits.toNat_lt
  have bits : (if number.isNegative then signWeight + number.magnitude else number.magnitude) =
      number.bits.toNat := by
    unfold isNegative magnitude signWeight
    simp only [decide_eq_true_iff]
    split <;> omega
  rw [ofMagnitude, bits, UInt64.ofNat_toNat]

theorem isNaN_of_isFinite (finite : number.isFinite = true) : number.isNaN = false :=
  isNaN_eq_false_iff.2 (isFinite_iff.1 finite).le

theorem isInfinite_of_isFinite (finite : number.isFinite = true) : number.isInfinite = false :=
  decide_eq_false (isFinite_iff.1 finite).ne

/-- What is not beyond a finite double rounds to a finite one. -/
theorem Rounded.isFinite
    {magnitude : Nat}
    (rounded : Rounded negative size number)
    (inside : magnitude < infinityMagnitude)
    (most : size ≤ extent magnitude) :
    number.isFinite = true :=
  isFinite_iff.2 ((rounded.le magnitude most).trans_lt inside)

/-- Rounding gives a number. -/
theorem Rounded.isNaN (rounded : Rounded negative size number) : number.isNaN = false :=
  isNaN_eq_false_iff.2 rounded.bounded

@[simp] theorem magnitude_neg (number : Binary64) : number.neg.magnitude = number.magnitude := by
  have weight : signWeight = 2 ^ 63 := rfl
  have bit : (0x8000000000000000 : UInt64).toNat = 2 ^ 63 := rfl
  rw [magnitude, magnitude, neg, UInt64.toNat_xor, bit, weight, Nat.xor_mod_two_pow, Nat.mod_self,
    Nat.xor_zero]

@[simp] theorem isNegative_neg (number : Binary64) :
    number.neg.isNegative = !number.isNegative := by
  have sign (other : Binary64) : other.isNegative = other.bits.toNat.testBit 63 := by
    have bounded := other.bits.toNat_lt
    rw [Nat.testBit_eq_decide_div_mod_eq, isNegative, signWeight]
    exact decide_eq_decide.2 (by omega)
  have bit : (0x8000000000000000 : UInt64).toNat = 2 ^ 63 := rfl
  rw [sign, sign, neg, UInt64.toNat_xor, bit, Nat.testBit_xor,
    Nat.testBit_two_pow_self, Bool.xor_true]

theorem isFinite_neg (number : Binary64) : number.neg.isFinite = number.isFinite := by
  rw [isFinite, isFinite, magnitude_neg]

/-! ## Exact results -/

/-- Two numbers pass no NaN on. -/
theorem passedOn?_eq_none (proper : first.isNaN = false) (otherProper : second.isNaN = false) :
    passedOn? first second = none := by
  rw [passedOn?, proper, otherProper]
  rfl

/-- A product of finite numbers. -/
theorem rounded_mul (finite : first.isFinite = true) (otherFinite : second.isFinite = true) :
    Rounded (first.isNegative != second.isNegative)
      (extent first.magnitude * extent second.magnitude) (first.mul second) := by
  have exact : extent first.magnitude * extent second.magnitude =
      (first.significand * second.significand : Nat) * 2 ^ (first.exponent + second.exponent) := by
    rw [← significand_mul_pow, ← significand_mul_pow, zpow_add₀ two_ne_zero]
    push_cast
    ring
  rw [mul, passedOn?_eq_none (isNaN_of_isFinite finite) (isNaN_of_isFinite otherFinite),
    Option.getD_none, product, isInfinite_of_isFinite finite, isInfinite_of_isFinite otherFinite,
    Bool.or_false, if_neg Bool.false_ne_true, exact]
  exact rounded_roundScaled _ _ _

/-- A quotient of finite numbers. -/
theorem rounded_div
    (finite : first.isFinite = true)
    (otherFinite : second.isFinite = true)
    (nonzero : second.magnitude ≠ 0) :
    Rounded (first.isNegative != second.isNegative)
      (extent first.magnitude / extent second.magnitude) (first.div second) := by
  have divisor : second.isZero = false := decide_eq_false nonzero
  rw [div, passedOn?_eq_none (isNaN_of_isFinite finite) (isNaN_of_isFinite otherFinite),
    Option.getD_none, quotient, isInfinite_of_isFinite finite, isInfinite_of_isFinite otherFinite,
    divisor, if_neg Bool.false_ne_true, if_neg Bool.false_ne_true, if_neg Bool.false_ne_true]
  split
  next zero =>
    rw [isZero_iff.1 zero, extent_zero, zero_div]
    exact rounded_zero _
  next some =>
    have positive (other : Binary64) (apart : other.magnitude ≠ 0) : other.significand ≠ 0 := by
      intro none
      have size := significand_mul_pow other
      rw [none, Nat.cast_zero, zero_mul] at size
      exact (extent_pos (Nat.pos_of_ne_zero apart)).ne size
    have exact : extent first.magnitude / extent second.magnitude =
        first.significand / second.significand * 2 ^ (first.exponent - second.exponent) := by
      rw [← significand_mul_pow, ← significand_mul_pow, zpow_sub₀ two_ne_zero, div_mul_div_comm]
    rw [exact]
    exact rounded_roundQuotient _ (positive first (mt isZero_iff.2 some))
      (Nat.pos_of_ne_zero (positive second nonzero)) _

/-- The size of a finite number with its sign. -/
def signedExtent (number : Binary64) : ℚ :=
  if number.isNegative then -extent number.magnitude else extent number.magnitude

/-- The extent of a double is what its significand and its exponent denote. -/
theorem signedSignificand_mul_pow (number : Binary64) :
    (number.signedSignificand : ℚ) * 2 ^ number.exponent = number.signedExtent := by
  rw [signedSignificand, signedExtent, ← significand_mul_pow]
  split
  · push_cast
    ring
  · rw [Int.cast_natCast]

/-- A sum of finite numbers.  A sum that is exactly zero has a sign only if both numbers have it. -/
theorem rounded_sum (finite : first.isFinite = true) (otherFinite : second.isFinite = true) :
    Rounded
      (if first.signedExtent + second.signedExtent = 0 then first.isNegative && second.isNegative
        else first.signedExtent + second.signedExtent < 0)
      |first.signedExtent + second.signedExtent| (first.sum second) := by
  have units (other : Binary64) (least : min first.exponent second.exponent ≤ other.exponent) :
      ((other.signedSignificand *
          (Nat.pow 2 (other.exponent - min first.exponent second.exponent).toNat : Nat) :
            Int) : ℚ) *
        2 ^ min first.exponent second.exponent = other.signedExtent := by
    rw [← signedSignificand_mul_pow, pow_two_split least]
    push_cast [Nat.pow_eq]
    ring
  have exact := congrArg₂ (· + ·) (units first (min_le_left _ _)) (units second (min_le_right _ _))
  unfold sum
  rw [isInfinite_of_isFinite finite, isInfinite_of_isFinite otherFinite,
    if_neg Bool.false_ne_true, if_neg Bool.false_ne_true]
  dsimp only at exact ⊢
  rw [← add_mul, ← Int.cast_add] at exact
  have unit := pow_two_pos (min first.exponent second.exponent)
  generalize first.signedSignificand * (Nat.pow 2 (first.exponent -
    min first.exponent second.exponent).toNat : Nat) + second.signedSignificand *
    (Nat.pow 2 (second.exponent - min first.exponent second.exponent).toNat : Nat) =
      total at exact ⊢
  rw [← exact]
  by_cases none : total = 0
  · rw [none, Int.cast_zero, zero_mul, abs_zero, if_pos rfl, if_pos rfl]
    exact rounded_zero _
  · have some : (total : ℚ) * 2 ^ min first.exponent second.exponent ≠ 0 :=
      mul_ne_zero (Int.cast_ne_zero.2 none) unit.ne'
    have sign : decide ((total : ℚ) * 2 ^ min first.exponent second.exponent < 0) =
        decide (total < 0) :=
      decide_eq_decide.2 ⟨fun less => Int.cast_lt_zero.1 (neg_of_mul_neg_left less unit.le),
        fun less => mul_neg_of_neg_of_pos (Int.cast_lt_zero.2 less) unit⟩
    have size : |(total : ℚ) * 2 ^ min first.exponent second.exponent| =
        total.natAbs * 2 ^ min first.exponent second.exponent := by
      rw [abs_mul, abs_of_pos unit, Nat.cast_natAbs, Int.cast_abs]
    rw [if_neg none, if_neg some, sign, size]
    exact rounded_roundScaled _ _ _

/-- A change of the sign negates the extent. -/
theorem signedExtent_neg (number : Binary64) : number.neg.signedExtent = -number.signedExtent := by
  rw [signedExtent, signedExtent, magnitude_neg, isNegative_neg]
  cases number.isNegative <;> simp

/-- A finite number without a sign. -/
structure IsNatural (number : Binary64) : Prop where
  isFinite : number.isFinite = true
  isNegative : number.isNegative = false

theorem isNatural_one : IsNatural one := ⟨rfl, rfl⟩

/-- A difference of numbers without a sign. -/
theorem rounded_sub (natural : first.IsNatural) (otherNatural : second.IsNatural) :
    Rounded (first.magnitude < second.magnitude) |extent first.magnitude - extent second.magnitude|
      (first.sub second) := by
  have opposite : second.neg.isFinite = true := (isFinite_neg second).trans otherNatural.isFinite
  have rounded := rounded_sum natural.isFinite opposite
  have exact : first.signedExtent + second.neg.signedExtent =
      extent first.magnitude - extent second.magnitude := by
    rw [signedExtent_neg, signedExtent, signedExtent, natural.isNegative, otherNatural.isNegative,
      if_neg Bool.false_ne_true, if_neg Bool.false_ne_true, sub_eq_add_neg]
  have sign : (if extent first.magnitude - extent second.magnitude = 0 then
        first.isNegative && second.neg.isNegative
      else decide (extent first.magnitude - extent second.magnitude < 0)) =
      decide (first.magnitude < second.magnitude) := by
    rw [natural.isNegative, Bool.false_and,
      decide_eq_decide.2 (sub_neg.trans (extent_strictMono.lt_iff_lt))]
    split
    next same =>
      rw [extent_strictMono.injective (sub_eq_zero.1 same), decide_eq_false (lt_irrefl _)]
    next => rfl
  rw [exact, sign] at rounded
  rwa [sub, passedOn?_eq_none (isNaN_of_isFinite natural.isFinite)
    (isNaN_of_isFinite otherNatural.isFinite)]

/-- The sign of a difference tells how the numbers are ordered. -/
theorem signum_sub (natural : first.IsNatural) (otherNatural : second.IsNatural) :
    (first.sub second).signum = Int.sign (first.magnitude - second.magnitude) := by
  have rounded := rounded_sub natural otherNatural
  have apart (different : extent 1 ≤ |extent first.magnitude - extent second.magnitude|) :
      (first.sub second).isZero = false :=
    decide_eq_false (Nat.pos_of_ne_zero fun none => by
      have least := rounded.ge 1 (by decide) different
      omega).ne'
  rw [signum, rounded.isNaN, rounded.isNegative]
  rcases lt_trichotomy first.magnitude second.magnitude with less | same | greater
  · have least := extent_add_least_le less
    rw [apart (by rw [abs_sub_comm]; exact (le_sub_iff_add_le'.2 least).trans (le_abs_self _)),
      decide_eq_true less, Int.sign_eq_neg_one_of_neg (by omega)]
    rfl
  · have zero : (first.sub second).isZero = true := by
      refine isZero_iff.2 (Nat.le_zero.1 (rounded.le 0 ?_))
      rw [same, sub_self, abs_zero, extent_zero]
    rw [zero, same, sub_self]
    rfl
  · have least := extent_add_least_le greater
    rw [apart ((le_sub_iff_add_le'.2 least).trans (le_abs_self _)),
      decide_eq_false greater.not_gt, Int.sign_eq_one_of_pos (by omega)]
    rfl

/-! ## Infinities -/

theorem magnitude_infinity (negative : Bool) : (infinity negative).magnitude = infinityMagnitude :=
  magnitude_ofMagnitude negative (by decide)

theorem isNegative_infinity (negative : Bool) : (infinity negative).isNegative = negative :=
  isNegative_ofMagnitude negative (by decide)

theorem isNaN_infinity (negative : Bool) : (infinity negative).isNaN = false :=
  isNaN_eq_false_iff.2 (magnitude_infinity negative).le

theorem isInfinite_infinity (negative : Bool) : (infinity negative).isInfinite = true :=
  isInfinite_iff.2 (magnitude_infinity negative)

/-- The infinities are told apart by their sign alone. -/
theorem eq_infinity (infinite : number.magnitude = infinityMagnitude) :
    number = infinity number.isNegative := by
  rw [infinity, ← infinite, ofMagnitude_magnitude]

theorem neg_infinity (negative : Bool) : (infinity negative).neg = infinity !negative := by
  have opposite := eq_infinity ((magnitude_neg _).trans (magnitude_infinity negative))
  rwa [isNegative_neg, isNegative_infinity] at opposite

theorem signum_infinity (negative : Bool) :
    (infinity negative).signum = if negative then -1 else 1 := by
  have zero : (infinity negative).isZero = false :=
    decide_eq_false (by rw [magnitude_infinity]; decide)
  simp [signum, isNaN_infinity, isNegative_infinity, zero]

/-- A quotient of an infinity is an infinity. -/
theorem infinity_div (finite : number.isFinite = true) :
    (infinity negative).div number = infinity (negative != number.isNegative) := by
  rw [div, passedOn?_eq_none (isNaN_infinity negative) (isNaN_of_isFinite finite), Option.getD_none,
    quotient, isInfinite_infinity, isInfinite_of_isFinite finite, isNegative_infinity, if_pos rfl,
    if_neg Bool.false_ne_true]

/-- A difference of an infinity and a finite number is the infinity. -/
theorem infinity_sub (finite : number.isFinite = true) :
    (infinity negative).sub number = infinity negative := by
  rw [sub, passedOn?_eq_none (isNaN_infinity negative) (isNaN_of_isFinite finite), Option.getD_none,
    sum, isInfinite_infinity,
    isInfinite_of_isFinite ((isFinite_neg number).trans finite), if_pos rfl,
    Bool.false_and, if_neg Bool.false_ne_true]

/-! ## Growing and shrinking -/

/-- A number that has at least a size.  It may be one of the infinities. -/
structure HasSize (least : ℚ) (number : Binary64) : Prop where
  isNaN : number.isNaN = false
  le : least ≤ extent number.magnitude

namespace HasSize

variable {least : ℚ}

/-- A double of at least one size is of at least every smaller one. -/
theorem mono {other : ℚ} (sized : HasSize least number) (less : other ≤ least) :
    HasSize other number :=
  ⟨sized.isNaN, less.trans sized.le⟩

/-- A double of at least a positive size is not zero. -/
theorem nonzero (sized : HasSize least number) (positive : 0 < least) : number.magnitude ≠ 0 := by
  intro none
  have size := sized.le
  rw [none, extent_zero] at size
  exact size.not_gt positive

/-- A size rounds to at least any number below it. -/
theorem ofRounded
    {magnitude : Nat}
    (rounded : Rounded negative size number)
    (inside : magnitude ≤ infinityMagnitude)
    (below : extent magnitude ≤ size) :
    HasSize (extent magnitude) number :=
  ⟨rounded.isNaN, rounded.le_extent inside below⟩

end HasSize

/-- The size of a power of two. -/
theorem extent_power (exponents : Nat) :
    extent (exponents * exponentWeight + exponentWeight) = 2 ^ (exponents - 1022 : Int) := by
  have weight : ((exponentWeight : Nat) : ℚ) = 2 ^ (52 : Int) := by norm_num [exponentWeight]
  rw [extent_units _ (by decide) (.inr le_rfl), weight, ← zpow_add₀ two_ne_zero, leastExponent]
  congr 1
  ring

theorem extent_one : extent one.magnitude = 1 := by
  have power := extent_power 1022
  rwa [Nat.cast_ofNat, sub_self, zpow_zero] at power

theorem ofInt_two : ofInt 2 = ⟨0x4000000000000000⟩ := by decide +kernel

theorem isFinite_ofInt_two : (ofInt 2).isFinite = true := by
  rw [ofInt_two]
  rfl

theorem extent_ofInt_two : extent (ofInt 2).magnitude = 2 := by
  have power := extent_power 1023
  rw [ofInt_two]
  refine power.trans ?_
  norm_num

/-- The double of an integer is the integer, rounded. -/
theorem rounded_ofInt (number : Int) : Rounded (number < 0) number.natAbs (ofInt number) := by
  have rounded := rounded_roundScaled (number < 0) number.natAbs 0
  rwa [zpow_zero, mul_one] at rounded

theorem isNegative_ofInt {number : Int} (natural : 0 ≤ number) :
    (ofInt number).isNegative = false :=
  (rounded_ofInt number).isNegative.trans (decide_eq_false natural.not_gt)

/-- The double of a positive integer is at least one. -/
theorem hasSize_ofInt_of_pos {number : Int} (positive : 0 < number) : HasSize 1 (ofInt number) := by
  have rounded := rounded_ofInt number
  have least : (1 : ℚ) ≤ number.natAbs := by exact_mod_cast (by omega : 1 ≤ number.natAbs)
  rw [← extent_one] at least ⊢
  exact .ofRounded rounded (by decide) least

/-- The double of an integer above one is at least two. -/
theorem hasSize_ofInt_of_one_lt {number : Int} (many : 1 < number) : HasSize 2 (ofInt number) := by
  have rounded := rounded_ofInt number
  have least : (2 : ℚ) ≤ number.natAbs := by exact_mod_cast (by omega : 2 ≤ number.natAbs)
  rw [← extent_ofInt_two] at least ⊢
  exact .ofRounded rounded (isFinite_iff.1 isFinite_ofInt_two).le least

/-- A quotient of a finite number, also by an infinity. -/
theorem exists_rounded_div
    {least : ℚ}
    (finite : first.isFinite = true)
    (sized : HasSize least second)
    (positive : 0 < least) :
    ∃ size, 0 ≤ size ∧ size * least ≤ extent first.magnitude ∧
      Rounded (first.isNegative != second.isNegative) size (first.div second) := by
  rcases (isNaN_eq_false_iff.1 sized.isNaN).lt_or_eq with otherFinite | infinite
  · have divisor := positive.trans_le sized.le
    have nonneg := div_nonneg (extent_nonneg first.magnitude) divisor.le
    refine ⟨_, nonneg, ?_, rounded_div finite (isFinite_iff.2 otherFinite) (sized.nonzero positive)⟩
    calc extent first.magnitude / extent second.magnitude * least
        ≤ extent first.magnitude / extent second.magnitude * extent second.magnitude :=
          mul_le_mul_of_nonneg_left sized.le nonneg
      _ = extent first.magnitude := div_mul_cancel₀ _ divisor.ne'
  · refine ⟨0, le_rfl, (zero_mul _).trans_le (extent_nonneg _), ?_⟩
    rw [div, passedOn?_eq_none (isNaN_of_isFinite finite) sized.isNaN, Option.getD_none, quotient,
      isInfinite_of_isFinite finite, isInfinite_iff.2 infinite, if_neg Bool.false_ne_true,
      if_pos rfl]
    exact rounded_zero _

/-- A quotient by a number that is at least one is no greater in size. -/
theorem magnitude_div_le (finite : first.isFinite = true) (large : HasSize 1 second) :
    (first.div second).magnitude ≤ first.magnitude := by
  obtain ⟨size, _, most, rounded⟩ := exists_rounded_div finite large one_pos
  rw [mul_one] at most
  exact rounded.le _ most

/-- A quotient by a number that is at least two is smaller, unless it is of the smallest numbers. -/
theorem magnitude_div_lt
    (finite : first.isFinite = true)
    (large : HasSize 2 second)
    (many : 1 < first.magnitude) :
    (first.div second).magnitude < first.magnitude := by
  obtain ⟨size, _, most, rounded⟩ := exists_rounded_div finite large two_pos
  obtain ⟨below, same⟩ := Nat.exists_eq_succ_of_ne_zero (Nat.ne_of_gt (Nat.zero_lt_of_lt many))
  rw [same] at most many ⊢
  have near := mul_extent_succ_le (Nat.le_of_lt_succ many) (by decide : 1 ≤ exponentWeight)
  push_cast at near
  exact Nat.lt_succ_of_le (rounded.le below (by linarith))

/-- A product with a number that is at most one is no greater in size. -/
theorem magnitude_mul_le
    (finite : first.isFinite = true)
    (otherFinite : second.isFinite = true)
    (small : extent second.magnitude ≤ 1) :
    (first.mul second).magnitude ≤ first.magnitude :=
  (rounded_mul finite otherFinite).le _ (mul_le_of_le_one_right (extent_nonneg _) small)

/-- A product with a number that is clearly below one is smaller, unless it is of the smallest
numbers. -/
theorem magnitude_mul_lt
    (finite : first.isFinite = true)
    (otherFinite : second.isFinite = true)
    (small : extent second.magnitude ≤ 7 / 8)
    (many : 7 < first.magnitude) :
    (first.mul second).magnitude < first.magnitude := by
  have rounded := rounded_mul finite otherFinite
  obtain ⟨below, same⟩ := Nat.exists_eq_succ_of_ne_zero (Nat.ne_of_gt (Nat.zero_lt_of_lt many))
  rw [same] at rounded many ⊢
  have near := mul_extent_succ_le (Nat.le_of_lt_succ many) (by decide : 7 ≤ exponentWeight)
  have scaled := mul_le_mul_of_nonneg_left small (extent_nonneg (below + 1))
  push_cast at near
  exact Nat.lt_succ_of_le (rounded.le below (by rw [Nat.succ_eq_add_one]; linarith))

/-- A product is infinite if a factor is, and none is zero. -/
theorem mul_of_isInfinite
    (proper : first.isNaN = false)
    (otherProper : second.isNaN = false)
    (infinite : first.isInfinite || second.isInfinite)
    (nonzero : first.magnitude ≠ 0)
    (otherNonzero : second.magnitude ≠ 0) :
    first.mul second = infinity (first.isNegative != second.isNegative) := by
  have zero : (first.isZero || second.isZero) = false :=
    Bool.or_eq_false_iff.2 ⟨decide_eq_false nonzero, decide_eq_false otherNonzero⟩
  rw [mul, passedOn?_eq_none proper otherProper, Option.getD_none, product,
    infinite, if_pos rfl, zero,
    if_neg Bool.false_ne_true]

/-- A product with a number that is at least two is greater. -/
theorem lt_magnitude_mul
    (finite : first.isFinite = true)
    (large : HasSize 2 second)
    (nonzero : first.magnitude ≠ 0) :
    first.magnitude < (first.mul second).magnitude ∧
      (first.mul second).isNaN = false ∧
      (first.mul second).isNegative = (first.isNegative != second.isNegative) := by
  rcases (isNaN_eq_false_iff.1 large.isNaN).lt_or_eq with otherFinite | infinite
  · have rounded := rounded_mul finite (isFinite_iff.2 otherFinite)
    have near := mul_extent_succ_le (Nat.one_le_iff_ne_zero.2 nonzero)
      (by decide : 1 ≤ exponentWeight)
    have doubled := mul_le_mul_of_nonneg_left large.le (extent_nonneg first.magnitude)
    push_cast at near
    exact ⟨rounded.ge _ (isFinite_iff.1 finite) (by rw [Nat.succ_eq_add_one]; linarith),
      rounded.isNaN, rounded.isNegative⟩
  · have same := mul_of_isInfinite (isNaN_of_isFinite finite) large.isNaN
      (by rw [isInfinite_iff.2 infinite, Bool.or_true]) nonzero (large.nonzero two_pos)
    rw [same, isNaN_eq_false_iff, magnitude_infinity, isNegative_infinity]
    exact ⟨isFinite_iff.1 finite, le_rfl, rfl⟩

/-- A product of numbers that are at least one is at least one. -/
theorem HasSize.mul (large : HasSize 1 first) (otherLarge : HasSize 1 second) :
    HasSize 1 (first.mul second) := by
  rcases infinite : first.isInfinite || second.isInfinite
  · rw [Bool.or_eq_false_iff, isInfinite, isInfinite, decide_eq_false_iff_not,
      decide_eq_false_iff_not] at infinite
    have rounded := rounded_mul
      (isFinite_iff.2 ((isNaN_eq_false_iff.1 large.isNaN).lt_of_ne infinite.1))
      (isFinite_iff.2 ((isNaN_eq_false_iff.1 otherLarge.isNaN).lt_of_ne infinite.2))
    have least := one_le_mul_of_one_le_of_one_le large.le otherLarge.le
    rw [← extent_one] at least ⊢
    exact .ofRounded rounded (by decide) least
  · rw [mul_of_isInfinite large.isNaN otherLarge.isNaN infinite (large.nonzero one_pos)
      (otherLarge.nonzero one_pos)]
    refine ⟨isNaN_eq_false_iff.2 (magnitude_infinity _).le, ?_⟩
    rw [magnitude_infinity, ← extent_one]
    exact extent_strictMono.monotone (by decide)

/-! ## The total order -/

/-- The rank of a double is at most its magnitude. -/
theorem rank_le_magnitude (number : Binary64) : number.rank ≤ number.magnitude := by
  unfold rank
  split <;> omega

theorem rank_of_natural (natural : number.isNegative = false) : number.rank = number.magnitude := by
  rw [rank, natural, if_neg Bool.false_ne_true]

/-- The sign is negative for the numbers other than zero with a sign bit. -/
theorem signum_neg_iff :
    number.signum < 0 ↔
      number.isNaN = false ∧ number.magnitude ≠ 0 ∧ number.isNegative = true := by
  unfold signum isZero
  cases number.isNaN <;> cases number.isNegative <;> simp
  all_goals split <;> simp_all

/-- The sign is not positive for zeros and for the numbers with a sign bit. -/
theorem signum_nonpos_iff (proper : number.isNaN = false) :
    number.signum ≤ 0 ↔ number.magnitude = 0 ∨ number.isNegative = true := by
  unfold signum isZero
  rw [proper]
  by_cases zero : number.magnitude = 0
  · simp [zero]
  · cases number.isNegative <;> simp [zero]

/-- What comes after a number without a sign is greater in size. -/
theorem magnitude_lt_of_rank_lt
    (natural : first.isNegative = false)
    (less : first.rank < second.rank) :
    first.magnitude < second.magnitude := by
  have most := second.rank_le_magnitude
  rw [rank_of_natural natural] at less
  omega

/-- A number that has a sign at most if it is a zero. -/
def IsUnsigned (number : Binary64) : Prop :=
  number.isNegative = true → number.magnitude = 0

/-- A number without a negative sign is unsigned. -/
theorem isUnsigned_of_signum (proper : number.isNaN = false) (natural : ¬number.signum < 0) :
    number.IsUnsigned :=
  fun negative => by_contra fun nonzero => natural (signum_neg_iff.2 ⟨proper, nonzero, negative⟩)

theorem isUnsigned_neg (negative : number.signum < 0) : number.neg.IsUnsigned := by
  intro sign
  rw [isNegative_neg, (signum_neg_iff.1 negative).2.2] at sign
  cases sign

theorem IsNatural.isUnsigned (natural : number.IsNatural) : number.IsUnsigned := by
  intro sign
  rw [natural.isNegative] at sign
  cases sign

namespace IsUnsigned

variable (unsigned : first.IsUnsigned) (natural : second.isNegative = false)

include unsigned

theorem isNegative (nonzero : first.magnitude ≠ 0) : first.isNegative = false :=
  Bool.eq_false_iff.2 fun negative => nonzero (unsigned negative)

include natural

/-- Unsigned doubles are ordered as their magnitudes are. -/
theorem rank_lt_iff : second.rank < first.rank ↔ second.magnitude < first.magnitude := by
  rw [rank_of_natural natural]
  rcases sign : first.isNegative
  · rw [rank_of_natural sign, Nat.cast_lt]
  · rw [rank, sign, if_pos rfl, unsigned sign]
    omega

theorem rank_le_iff (nonzero : second.magnitude ≠ 0) :
    second.rank ≤ first.rank ↔ second.magnitude ≤ first.magnitude := by
  rw [rank_of_natural natural]
  rcases sign : first.isNegative
  · rw [rank_of_natural sign, Nat.cast_le]
  · rw [rank, sign, if_pos rfl, unsigned sign]
    omega

end IsUnsigned
end Binary64
end Reckoner
