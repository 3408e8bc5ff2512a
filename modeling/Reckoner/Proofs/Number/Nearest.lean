import Reckoner.Number.Binary64.Arithmetic
import Reckoner.Proofs.Number.Shortest

/-!
# Rounding to floating point numbers

The size of a floating point number rises with its magnitude.  A result that is rounded to the
nearest number lies on the same side of every number as the exact result: numbers are what they
round to, and rounding keeps the order.  The exact results of the operations are taken from the
sizes and signs of the operands.
-/

namespace Reckoner
namespace Binary64

/-! ## Sizes -/

/-- The size of the finite numbers of a magnitude.  On the infinities it is the power of two that
the finite numbers stay below. -/
def extent (magnitude : Nat) : ℚ :=
  let field := magnitude / exponentWeight
  let fraction := magnitude % exponentWeight
  ((if field = 0 then fraction else fraction + exponentWeight : Nat) : ℚ) *
    2 ^ (((max field 1 : Nat) : Int) - 1 + leastExponent)

theorem significand_mul_pow (number : Binary64) :
    (number.significand : ℚ) * 2 ^ number.exponent = extent number.magnitude := rfl

/-- A magnitude is a number of units after a number of exponents, and only before the first
exponent are the units few. -/
theorem exists_units (magnitude : Nat) :
    ∃ exponents units, magnitude = exponents * exponentWeight + units ∧
      units < 2 * exponentWeight ∧ (exponents = 0 ∨ exponentWeight ≤ units) := by
  rcases Nat.eq_zero_or_pos (magnitude / exponentWeight) with none | some
  · refine ⟨0, magnitude, by omega, ?_, .inl rfl⟩
    unfold exponentWeight at *
    omega
  · refine ⟨magnitude / exponentWeight - 1, exponentWeight + magnitude % exponentWeight, ?_, ?_,
      .inr (Nat.le_add_right _ _)⟩ <;>
    · unfold exponentWeight at *
      omega

/-- The size of so many units after so many exponents, also when the units reach the next
exponent. -/
theorem extent_units
    (exponents : Nat)
    {units : Nat}
    (few : units ≤ 2 * exponentWeight)
    (enough : exponents = 0 ∨ exponentWeight ≤ units) :
    extent (exponents * exponentWeight + units) = units * 2 ^ (exponents + leastExponent) := by
  have parts (field fraction : Nat)
      (atField : (exponents * exponentWeight + units) / exponentWeight = field)
      (atFraction : (exponents * exponentWeight + units) % exponentWeight = fraction) :
      extent (exponents * exponentWeight + units) =
        ((if field = 0 then fraction else fraction + exponentWeight : Nat) : ℚ) *
          2 ^ (((max field 1 : Nat) : Int) - 1 + leastExponent) := by
    rw [extent, atField, atFraction]
  rcases few.lt_or_eq with less | rfl
  · rcases Nat.lt_or_ge units exponentWeight with least | beyond
    · obtain rfl : exponents = 0 := enough.resolve_right (Nat.not_le.2 least)
      rw [parts 0 units (by unfold exponentWeight at *; omega)
        (by unfold exponentWeight at *; omega),
        if_pos rfl]
      rfl
    · rw [parts (exponents + 1) (units - exponentWeight) (by unfold exponentWeight at *; omega)
        (by unfold exponentWeight at *; omega), if_neg (Nat.succ_ne_zero _),
        Nat.sub_add_cancel beyond, Nat.max_eq_left (Nat.le_add_left 1 _), Nat.cast_succ,
        add_sub_cancel_right]
  · rw [parts (exponents + 2) 0 (by unfold exponentWeight; omega) (by unfold exponentWeight; omega),
      if_neg (Nat.succ_ne_zero _), Nat.zero_add, Nat.max_eq_left (by omega)]
    push_cast
    rw [show (exponents : Int) + 2 - 1 + leastExponent = 1 + (exponents + leastExponent) by ring,
      zpow_add₀ two_ne_zero, zpow_one]
    ring

theorem extent_zero : extent 0 = 0 := by
  have units := extent_units 0 (Nat.zero_le (2 * exponentWeight)) (.inl rfl)
  rwa [Nat.zero_mul, Nat.add_zero, Nat.cast_zero, zero_mul] at units

/-- The next number is one unit greater. -/
theorem extent_succ {exponents units : Nat}
    (few : units < 2 * exponentWeight)
    (enough : exponents = 0 ∨ exponentWeight ≤ units) :
    extent (exponents * exponentWeight + units + 1) =
      extent (exponents * exponentWeight + units) + 2 ^ (exponents + leastExponent) := by
  rw [Nat.add_assoc, extent_units _ few (enough.imp_right Nat.le_succ_of_le),
    extent_units _ few.le enough, Nat.cast_succ, add_one_mul]

/-- Larger magnitudes have larger extents. -/
theorem extent_strictMono : StrictMono extent := by
  refine strictMono_nat_of_lt_succ fun magnitude => ?_
  obtain ⟨exponents, units, rfl, few, enough⟩ := exists_units magnitude
  rw [extent_succ few enough]
  exact lt_add_of_pos_right _ (pow_two_pos _)

theorem extent_nonneg (magnitude : Nat) : 0 ≤ extent magnitude :=
  extent_zero.symm.le.trans (extent_strictMono.monotone (Nat.zero_le magnitude))

theorem extent_pos {magnitude : Nat} (positive : 0 < magnitude) : 0 < extent magnitude :=
  extent_zero.symm.trans_lt (extent_strictMono positive)

/-- Numbers are at least the smallest positive one apart. -/
theorem extent_add_least_le {first second : Nat} (less : first < second) :
    extent first + extent 1 ≤ extent second := by
  refine le_trans ?_ (extent_strictMono.monotone (Nat.succ_le_of_lt less))
  obtain ⟨exponents, units, rfl, few, enough⟩ := exists_units first
  have least := extent_units 0 (by decide : 1 ≤ 2 * exponentWeight) (.inl rfl)
  rw [Nat.zero_mul, Nat.zero_add, Nat.cast_one, one_mul, Nat.cast_zero, zero_add] at least
  rw [extent_succ few enough, least]
  exact add_le_add_right (zpow_le_zpow_right₀ one_le_two (by omega)) _

/-- From a number of units on, the next number is greater by a small part only. -/
theorem mul_extent_succ_le
    {parts magnitude : Nat}
    (many : parts ≤ magnitude)
    (few : parts ≤ exponentWeight) :
    parts * extent (magnitude + 1) ≤ (parts + 1) * extent magnitude := by
  obtain ⟨exponents, units, rfl, less, enough⟩ := exists_units magnitude
  have bounded : (parts : ℚ) ≤ units := by
    refine Nat.cast_le.2 (enough.elim ?_ few.trans)
    rintro rfl
    omega
  rw [extent_succ less enough, extent_units _ less.le enough]
  nlinarith [pow_two_pos (exponents + leastExponent)]

/-- A number is a multiple of a power of two unless it is small beside it. -/
theorem extent_multiple_or_lt (magnitude : Nat) (place : Int) :
    (∃ multiple : Nat, extent magnitude = multiple * 2 ^ place) ∨
      extent magnitude < exponentWeight * 2 ^ place := by
  obtain ⟨exponents, units, rfl, less, enough⟩ := exists_units magnitude
  rw [extent_units _ less.le enough]
  rcases le_or_gt place (exponents + leastExponent) with fine | coarse
  · refine .inl ⟨units * 2 ^ (exponents + leastExponent - place).toNat, ?_⟩
    push_cast
    rw [mul_assoc, ← zpow_natCast, ← zpow_add₀ two_ne_zero]
    congr 2
    omega
  · refine .inr ?_
    have halved : (2 : ℚ) ^ place = 2 * 2 ^ (place - 1) := by
      rw [← zpow_one_add₀ two_ne_zero]
      congr 1
      ring
    calc (units : ℚ) * 2 ^ (exponents + leastExponent)
        ≤ units * 2 ^ (place - 1) := by
          refine mul_le_mul_of_nonneg_left ?_ (Nat.cast_nonneg _)
          exact zpow_le_zpow_right₀ one_le_two (Int.le_sub_one_of_lt coarse)
      _ < (2 * exponentWeight : Nat) * 2 ^ (place - 1) :=
          mul_lt_mul_of_pos_right (Nat.cast_lt.2 less) (pow_two_pos _)
      _ = exponentWeight * 2 ^ place := by
          rw [halved]
          push_cast
          ring

/-! ## Rounding -/

section Quotients

variable {numerator denominator bound : Nat}

/-- A quotient below an integer rounds to at most this integer. -/
theorem divNearestEven_le (positive : 0 < denominator) (below : numerator ≤ bound * denominator) :
    divNearestEven numerator denominator ≤ bound := by
  have least : numerator / denominator ≤ bound := Nat.div_le_of_le_mul (by rwa [Nat.mul_comm])
  have parts := Nat.div_add_mod' numerator denominator
  unfold divNearestEven
  dsimp only
  rcases least.lt_or_eq with less | same
  · split <;> [skip; split] <;> omega
  · rw [same] at parts
    rw [if_pos (by omega)]
    exact least

/-- A quotient above an integer rounds to at least this integer. -/
theorem le_divNearestEven (positive : 0 < denominator) (above : bound * denominator ≤ numerator) :
    bound ≤ divNearestEven numerator denominator := by
  have most : bound ≤ numerator / denominator := (Nat.le_div_iff_mul_le positive).2 above
  unfold divNearestEven
  dsimp only
  split <;> [skip; split] <;> omega

end Quotients

/-- A multiple of a power of two in units of another one, rounded to a whole number. -/
def inUnits (significand : Nat) (exponent unit : Int) : Nat :=
  if unit ≤ exponent then significand * Nat.pow 2 (exponent - unit).toNat
  else divNearestEven significand (Nat.pow 2 (unit - exponent).toNat)

section Units

variable {significand bound : Nat} {exponent unit : Int}

/-- The smaller of two powers of two makes up the greater one. -/
theorem pow_two_split (less : unit ≤ exponent) :
    (2 : ℚ) ^ exponent = (2 ^ (exponent - unit).toNat : Nat) * 2 ^ unit := by
  push_cast
  rw [← zpow_natCast, ← zpow_add₀ two_ne_zero]
  congr 1
  omega

theorem inUnits_le (below : (significand : ℚ) * 2 ^ exponent ≤ bound * 2 ^ unit) :
    inUnits significand exponent unit ≤ bound := by
  unfold inUnits
  split
  next fine =>
    rw [pow_two_split fine, ← mul_assoc, mul_le_mul_iff_of_pos_right (pow_two_pos unit)] at below
    exact_mod_cast below
  next coarse =>
    rw [pow_two_split (Int.le_of_lt (Int.not_le.1 coarse)), ← mul_assoc,
      mul_le_mul_iff_of_pos_right (pow_two_pos exponent)] at below
    exact divNearestEven_le (Nat.pow_pos (by decide)) (by exact_mod_cast below)

theorem le_inUnits (above : (bound : ℚ) * 2 ^ unit ≤ significand * 2 ^ exponent) :
    bound ≤ inUnits significand exponent unit := by
  unfold inUnits
  split
  next fine =>
    rw [pow_two_split fine, ← mul_assoc, mul_le_mul_iff_of_pos_right (pow_two_pos unit)] at above
    exact_mod_cast above
  next coarse =>
    rw [pow_two_split (Int.le_of_lt (Int.not_le.1 coarse)), ← mul_assoc,
      mul_le_mul_iff_of_pos_right (pow_two_pos exponent)] at above
    exact le_divNearestEven (Nat.pow_pos (by decide)) (by exact_mod_cast above)

end Units

theorem magnitude_ofMagnitude
    {magnitude : Nat}
    (negative : Bool)
    (bounded : magnitude < signWeight) :
    (ofMagnitude negative magnitude).magnitude = magnitude := by
  unfold signWeight at bounded
  unfold Binary64.magnitude ofMagnitude signWeight
  cases negative <;> simp only [UInt64.toNat_ofNat'] <;> split <;> omega

theorem isNegative_ofMagnitude
    {magnitude : Nat}
    (negative : Bool)
    (bounded : magnitude < signWeight) :
    (ofMagnitude negative magnitude).isNegative = negative := by
  unfold signWeight at bounded
  unfold isNegative ofMagnitude signWeight
  cases negative <;> simp [UInt64.toNat_ofNat'] <;> omega

/-- A number is what a sign and a size round to: it has the sign, and it lies on the same side of
every number as the size. -/
structure Rounded (negative : Bool) (size : ℚ) (number : Binary64) : Prop where
  isNegative : number.isNegative = negative
  bounded : number.magnitude ≤ infinityMagnitude
  le : ∀ magnitude, size ≤ extent magnitude → number.magnitude ≤ magnitude
  ge : ∀ magnitude ≤ infinityMagnitude, extent magnitude ≤ size → magnitude ≤ number.magnitude

namespace Rounded

variable {negative : Bool} {size : ℚ} {number : Binary64} {magnitude : Nat}
  (rounded : Rounded negative size number)

include rounded

/-- Rounding does not go beyond a double that is not below the size. -/
theorem extent_le (most : size ≤ extent magnitude) :
    extent number.magnitude ≤ extent magnitude :=
  extent_strictMono.monotone (rounded.le magnitude most)

/-- Rounding does not fall below a double that is not above the size. -/
theorem le_extent (inside : magnitude ≤ infinityMagnitude) (least : extent magnitude ≤ size) :
    extent magnitude ≤ extent number.magnitude :=
  extent_strictMono.monotone (rounded.ge magnitude inside least)

end Rounded

theorem rounded_zero (negative : Bool) : Rounded negative 0 (zero negative) where
  isNegative := isNegative_ofMagnitude negative (by decide)
  bounded := by
    rw [zero, magnitude_ofMagnitude negative (by decide)]
    exact Nat.zero_le _
  le magnitude _ := by
    rw [zero, magnitude_ofMagnitude negative (by decide)]
    exact Nat.zero_le _
  ge magnitude _ below := by
    rw [← extent_zero] at below
    exact (extent_strictMono.le_iff_le.1 below).trans (Nat.zero_le _)

/-- A bit length is not larger than it needs to be. -/
theorem le_pow_bitLength {value : Nat} (nonzero : value ≠ 0) : 2 ^ bitLength value ≤ 2 * value := by
  rw [bitLength, if_neg nonzero, pow_succ, Nat.mul_comm]
  exact Nat.mul_le_mul_left 2 (Nat.log2_self_le nonzero)

/-- A bit length is large enough. -/
theorem lt_pow_bitLength (value : Nat) : value < 2 ^ bitLength value := by
  unfold bitLength
  split
  next zero =>
    rw [zero]
    exact Nat.one_pos
  next => exact Nat.lt_log2_self

theorem two_mul_exponentWeight (unit : Int) :
    2 * exponentWeight * (2 : ℚ) ^ unit = 2 ^ (53 + unit) := by
  rw [zpow_add₀ two_ne_zero]
  norm_num [exponentWeight]

/-- The unit of the rounding is such that the size makes at most as many units as a significand
has, and few only before the first exponent. -/
theorem exists_unit
    {significand : Nat}
    (nonzero : significand ≠ 0)
    (exponent : Int)
    (negative : Bool) :
    ∃ exponents : Nat,
      (significand : ℚ) * 2 ^ exponent < 2 * exponentWeight * 2 ^ (exponents + leastExponent) ∧
      (exponents = 0 ∨
        (exponentWeight : ℚ) * 2 ^ (exponents + leastExponent) ≤ significand * 2 ^ exponent) ∧
      roundScaled negative significand exponent =
        ofMagnitude negative
          (min (exponents * exponentWeight +
            inUnits significand exponent (exponents + leastExponent))
            infinityMagnitude) := by
  obtain ⟨exponents, unit⟩ : ∃ exponents : Nat,
      max (bitLength significand + exponent - 53) leastExponent = exponents + leastExponent :=
    ⟨(max (bitLength significand + exponent - 53) leastExponent - leastExponent).toNat, by omega⟩
  have upper : (significand : ℚ) < 2 ^ (bitLength significand : Int) := by
    exact_mod_cast lt_pow_bitLength significand
  have lower : (2 : ℚ) ^ (bitLength significand : Int) ≤ 2 * significand := by
    exact_mod_cast le_pow_bitLength nonzero
  refine ⟨exponents, ?_, ?_, ?_⟩
  · calc (significand : ℚ) * 2 ^ exponent
        < 2 ^ (bitLength significand : Int) * 2 ^ exponent :=
          mul_lt_mul_of_pos_right upper (pow_two_pos exponent)
      _ ≤ 2 ^ (53 + (exponents + leastExponent)) := by
          rw [← zpow_add₀ two_ne_zero]
          exact zpow_le_zpow_right₀ one_le_two (by omega)
      _ = 2 * exponentWeight * 2 ^ (exponents + leastExponent) := (two_mul_exponentWeight _).symm
  · rcases Nat.eq_zero_or_pos exponents with first | later
    · exact .inl first
    · have exact : 53 + (exponents + leastExponent) = bitLength significand + exponent := by omega
      have doubled : 2 * exponentWeight * (2 : ℚ) ^ (exponents + leastExponent) ≤
          2 * significand * 2 ^ exponent := by
        rw [two_mul_exponentWeight, exact, zpow_add₀ two_ne_zero]
        exact mul_le_mul_of_nonneg_right lower (pow_two_pos exponent).le
      exact .inr (by linarith)
  · rw [roundScaled, if_neg nonzero, unit]
    dsimp only
    rw [add_sub_cancel_right, Int.toNat_natCast]
    rfl

/-- A significand times a power of two is rounded to the nearest number. -/
theorem rounded_roundScaled (negative : Bool) (significand : Nat) (exponent : Int) :
    Rounded negative (significand * 2 ^ exponent) (roundScaled negative significand exponent) := by
  by_cases none : significand = 0
  · rw [roundScaled, if_pos none, none, Nat.cast_zero, zero_mul]
    exact rounded_zero negative
  obtain ⟨exponents, few, enough, rounds⟩ := exists_unit none exponent negative
  have bounded (magnitude : Nat) : min magnitude infinityMagnitude < signWeight :=
    (Nat.min_le_right _ _).trans_lt (by decide)
  have most : inUnits significand exponent (exponents + leastExponent) ≤ 2 * exponentWeight :=
    inUnits_le (by exact_mod_cast few.le)
  have least : exponents = 0 ∨
      exponentWeight ≤ inUnits significand exponent (exponents + leastExponent) :=
    enough.imp_right le_inUnits
  rw [rounds]
  refine ⟨isNegative_ofMagnitude negative (bounded _), ?_, fun magnitude above => ?_,
    fun magnitude finite below => ?_⟩ <;>
    rw [magnitude_ofMagnitude negative (bounded _)]
  · exact Nat.min_le_right _ _
  · refine (Nat.min_le_left _ _).trans ?_
    rcases Nat.lt_or_ge (2 * exponentWeight)
      (magnitude - exponents * exponentWeight) with far | near
    · omega
    -- a number before the least of these units would be below the size
    have among : exponents = 0 ∨ exponents * exponentWeight + exponentWeight ≤ magnitude := by
      refine enough.imp_right fun large => le_of_not_gt fun before => ?_
      have less := extent_strictMono before
      rw [extent_units _ (by decide) (.inr le_rfl)] at less
      linarith
    obtain ⟨units, rfl⟩ : ∃ units, magnitude = exponents * exponentWeight + units :=
      Nat.exists_eq_add_of_le (by rcases among with rfl | beyond <;> omega)
    rw [extent_units _ (by omega) (among.imp_right (by omega))] at above
    exact Nat.add_le_add_left (inUnits_le above) _
  · refine Nat.le_min.2 ⟨le_of_not_gt fun less => ?_, finite⟩
    have next := (extent_strictMono.monotone (Nat.succ_le_of_lt less)).trans below
    rcases most.lt_or_eq with inside | full
    · rw [Nat.succ_eq_add_one, Nat.add_assoc,
        extent_units _ inside (least.imp_right Nat.le_succ_of_le)] at next
      exact Nat.not_succ_le_self _ (le_inUnits next)
    · have beyond := (extent_strictMono (Nat.lt_succ_self _)).trans_le next
      rw [extent_units _ most least, full] at beyond
      push_cast at beyond
      linarith

/-- Sizes on the same side of every number round to the same number. -/
theorem Rounded.of_same_side
    {negative : Bool}
    {size exact : ℚ}
    {number : Binary64}
    (rounded : Rounded negative size number)
    (below : ∀ magnitude, exact ≤ extent magnitude → size ≤ extent magnitude)
    (above : ∀ magnitude, extent magnitude ≤ exact → extent magnitude ≤ size) :
    Rounded negative exact number where
  isNegative := rounded.isNegative
  bounded := rounded.bounded
  le magnitude bound := rounded.le magnitude (below magnitude bound)
  ge magnitude finite bound := rounded.ge magnitude finite (above magnitude bound)

/-- The quotient is taken to more digits than a number has. -/
theorem exponentWeight_le_quotient
    {numerator denominator : Nat}
    (nonzero : numerator ≠ 0)
    (positive : 0 < denominator) :
    exponentWeight ≤
      numerator * 2 ^ (bitLength denominator + 55 - bitLength numerator) / denominator := by
  rw [Nat.le_div_iff_mul_le positive]
  have doubled : 2 * (exponentWeight * denominator) ≤
      2 * (numerator * 2 ^ (bitLength denominator + 55 - bitLength numerator)) := by
    calc 2 * (exponentWeight * denominator)
        ≤ 2 * (exponentWeight * 2 ^ bitLength denominator) :=
          Nat.mul_le_mul_left 2 (Nat.mul_le_mul_left _ (lt_pow_bitLength denominator).le)
      _ = 2 ^ (bitLength denominator + 53) := by
          rw [pow_add, exponentWeight]
          omega
      _ ≤ 2 ^ (bitLength numerator + (bitLength denominator + 55 - bitLength numerator)) :=
          Nat.pow_le_pow_right (by decide) (by omega)
      _ = 2 ^ bitLength numerator * 2 ^ (bitLength denominator + 55 - bitLength numerator) :=
          pow_add 2 _ _
      _ ≤ 2 * numerator * 2 ^ (bitLength denominator + 55 - bitLength numerator) :=
          Nat.mul_le_mul_right _ (le_pow_bitLength nonzero)
      _ = 2 * (numerator * 2 ^ (bitLength denominator + 55 - bitLength numerator)) :=
          Nat.mul_assoc _ _ _
  omega

/-- A quotient that is not whole lies between the same numbers as what is halfway from its whole
part to the next integer. -/
theorem rounded_of_halfway
    {negative : Bool}
    {whole : Nat}
    {quotient : ℚ}
    {place : Int}
    {number : Binary64}
    (many : exponentWeight ≤ whole)
    (above : (whole : ℚ) < quotient)
    (below : quotient < whole + 1)
    (rounded : Rounded negative ((2 * whole + 1 : Nat) * 2 ^ (place - 1)) number) :
    Rounded negative (quotient * 2 ^ place) number := by
  have unit := pow_two_pos place
  have halfway : ((2 * whole + 1 : Nat) : ℚ) * 2 ^ (place - 1) = (whole + 1 / 2) * 2 ^ place := by
    rw [zpow_sub₀ two_ne_zero, zpow_one]
    push_cast
    ring
  have large : (exponentWeight : ℚ) * 2 ^ place ≤ whole * 2 ^ place :=
    mul_le_mul_of_nonneg_right (Nat.cast_le.2 many) unit.le
  rw [halfway] at rounded
  refine rounded.of_same_side (fun magnitude bound => ?_) fun magnitude bound => ?_
  · rcases extent_multiple_or_lt magnitude place with ⟨multiple, same⟩ | small
    · rw [same] at bound ⊢
      have exceeds : whole < multiple := by
        have least := above.trans_le (le_of_mul_le_mul_right bound unit)
        exact_mod_cast least
      have next : (whole : ℚ) + 1 ≤ multiple := by exact_mod_cast exceeds
      exact mul_le_mul_of_nonneg_right (by linarith) unit.le
    · have less := mul_lt_mul_of_pos_right above unit
      linarith
  · rcases extent_multiple_or_lt magnitude place with ⟨multiple, same⟩ | small
    · rw [same] at bound ⊢
      have most : multiple ≤ whole := by
        have less := (le_of_mul_le_mul_right bound unit).trans_lt below
        exact Nat.le_of_lt_succ (by exact_mod_cast less)
      have cast : (multiple : ℚ) ≤ whole := Nat.cast_le.2 most
      exact mul_le_mul_of_nonneg_right (by linarith) unit.le
    · nlinarith

/-- A quotient times a power of two is rounded to the nearest number. -/
theorem rounded_roundQuotient
    (negative : Bool)
    {numerator denominator : Nat}
    (nonzero : numerator ≠ 0)
    (positive : 0 < denominator)
    (exponent : Int) :
    Rounded negative (numerator / denominator * 2 ^ exponent)
      (roundQuotient negative numerator denominator exponent) := by
  have many := exponentWeight_le_quotient nonzero positive
  unfold roundQuotient
  dsimp only [Nat.pow_eq]
  generalize bitLength denominator + 55 - bitLength numerator = shift at many ⊢
  have parts := Nat.div_add_mod' (numerator * 2 ^ shift) denominator
  have rest := Nat.mod_lt (numerator * 2 ^ shift) positive
  have divisor : (0 : ℚ) < denominator := Nat.cast_pos.2 positive
  have scaled : (numerator : ℚ) / denominator * 2 ^ exponent =
      (numerator * 2 ^ shift : Nat) / denominator * 2 ^ (exponent - shift) := by
    rw [zpow_sub₀ two_ne_zero, zpow_natCast]
    push_cast
    field_simp
  rw [scaled]
  generalize numerator * 2 ^ shift = product at *
  generalize product / denominator = whole at *
  split
  next exact =>
    have same : (product : ℚ) / denominator * 2 ^ (exponent - shift) =
        ((2 * whole + 0 : Nat) : ℚ) * 2 ^ (exponent - shift - 1) := by
      rw [exact, Nat.add_zero] at parts
      rw [← parts, Nat.add_zero, zpow_sub₀ two_ne_zero _ 1, zpow_one]
      push_cast
      field_simp
    rw [same]
    exact rounded_roundScaled negative _ _
  next inexact =>
    refine rounded_of_halfway many ?_ ?_ (rounded_roundScaled negative _ _)
    · rw [lt_div_iff₀ divisor]
      exact_mod_cast (by omega : whole * denominator < product)
    · rw [div_lt_iff₀ divisor, add_one_mul]
      exact_mod_cast (by omega : product < whole * denominator + denominator)

end Binary64
end Reckoner
