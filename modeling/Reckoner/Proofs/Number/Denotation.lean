import Reckoner.Number
import Reckoner.Proofs.Number.Numeral

/-!
# What the text of a decimal denotes

The four layouts in which a decimal is written put zeros in front of its digits or behind them,
and the point and the power of ten make up for it.  So the text denotes the rounded number as
long as 64 bits hold the power of ten, and the reader of literals agrees where there is none.
How many digits a text shows depends only on whether rounding carries.
-/

namespace Reckoner

open Decimal (pow_ten_pos pow_ten_add)

namespace Numeral

variable {numeral : Numeral}

/-! ## Layouts -/

/-- A numeral writes the digits of an integer so that some of them stand behind the point, up to
zeros in front of them and behind; the zeros behind do not lead beyond the digits that are shown.
-/
structure Spells (numeral : Numeral) (size : Nat) (scale : Int) (front behind : Nat) : Prop where
  digits_eq : numeral.digits =
    List.replicate front '0' ++ decimalDigits size ++ List.replicate behind '0'
  place : size = 0 ∨ numeral.exponent.getD 0 + behind = numeral.fraction.length - scale
  short : behind = 0 ∨ digitCount size + behind ≤ Decimal.outputPrecision

/-- The value of a numeral is a matter of the integer and the scale. -/
theorem Spells.value_eq
    {size : Nat}
    {scale : Int}
    {front behind : Nat}
    (spells : numeral.Spells size scale front behind) :
    numeral.value = size * 10 ^ (-scale) := by
  have whole : Nat.ofDigitChars 10 numeral.digits 0 = 10 ^ behind * size := by
    rw [spells.digits_eq, Nat.ofDigitChars_append, Nat.ofDigitChars_append,
      Nat.ofDigitChars_replicate_zero, Nat.ofDigitChars_replicate_zero, Nat.mul_zero,
      ofDigitChars_decimalDigits]
  rw [value, coefficientValue, whole]
  rcases spells.place with rfl | place
  · simp
  · have exponents : (10 : ℚ) ^ (-scale) =
        10 ^ (behind : Int) * 10 ^ (-(numeral.fraction.length : Int)) *
          10 ^ numeral.exponent.getD 0 := by
      rw [← pow_ten_add, ← pow_ten_add]
      congr 1
      omega
    rw [exponents, zpow_neg, zpow_natCast, zpow_natCast]
    push_cast
    ring

/-- A single digit in front of the point, and a power of ten. -/
def scientific (size : Nat) (exponent : Int) : Numeral where
  whole := (decimalDigits size).take 1
  fraction := (decimalDigits size).drop 1
  exponent := some exponent
  nonempty := by simp [decimalDigits_ne_nil]
  areDigits := by
    rw [List.take_append_drop]
    exact fun _ => isDigit_of_mem_decimalDigits
  oneDigit := fun _ => by
    rw [List.length_take]
    exact min_eq_left (List.length_pos_of_ne_nil (decimalDigits_ne_nil size))

/-- The digits with zeros behind them. -/
def integral (size zeros : Nat) : Numeral where
  whole := decimalDigits size ++ List.replicate zeros '0'
  fraction := []
  exponent := none
  nonempty := by simp [decimalDigits_ne_nil]
  areDigits := by
    intro character member
    rw [List.append_nil, List.mem_append] at member
    rcases member with digit | zero
    · exact isDigit_of_mem_decimalDigits digit
    · rw [List.eq_of_mem_replicate zero]
      decide
  oneDigit := nofun

/-- The digits with the point between them. -/
def pointed (size place : Nat) (inside : place < (decimalDigits size).length) : Numeral where
  whole := (decimalDigits size).take ((decimalDigits size).length - place)
  fraction := (decimalDigits size).drop ((decimalDigits size).length - place)
  exponent := none
  nonempty := by
    rw [Ne, List.take_eq_nil_iff, not_or]
    exact ⟨by omega, decimalDigits_ne_nil size⟩
  areDigits := by
    rw [List.take_append_drop]
    exact fun _ => isDigit_of_mem_decimalDigits
  oneDigit := nofun

/-- The digits behind the point and some zeros. -/
def small (size zeros : Nat) : Numeral where
  whole := ['0']
  fraction := List.replicate zeros '0' ++ decimalDigits size
  exponent := none
  nonempty := nofun
  areDigits := by
    intro character member
    rw [List.singleton_append, List.mem_cons, List.mem_append] at member
    rcases member with rfl | zero | digit
    · decide
    · rw [List.eq_of_mem_replicate zero]
      decide
    · exact isDigit_of_mem_decimalDigits digit
  oneDigit := nofun

/-- The scientific layout spells the decimal. -/
theorem spells_scientific (size : Nat) (scale : Int) :
    (scientific size ((decimalDigits size).length - 1 - scale)).Spells size scale 0 0 where
  digits_eq := (List.take_append_drop 1 _).trans (List.append_nil _).symm
  place := by
    right
    have nonempty := List.length_pos_of_ne_nil (decimalDigits_ne_nil size)
    simp only [scientific, Option.getD_some, List.length_drop]
    omega
  short := .inl rfl

/-- The layout of an integer with appended zeros spells the decimal. -/
theorem spells_integral
    {size zeros : Nat}
    {scale : Int}
    (place : size = 0 ∨ zeros = -scale)
    (short : zeros = 0 ∨ digitCount size + zeros ≤ Decimal.outputPrecision) :
    (integral size zeros).Spells size scale 0 zeros where
  digits_eq := by simp [integral, digits]
  place := by
    refine place.imp_right fun zeros => ?_
    simp only [integral, Option.getD_none, List.length_nil]
    omega
  short := short

/-- The layout with a point inside of the digits spells the decimal. -/
theorem spells_pointed
    {size place : Nat}
    (inside : place < (decimalDigits size).length) :
    (pointed size place inside).Spells size place 0 0 where
  digits_eq := by simp [pointed, digits]
  place := by
    right
    simp only [pointed, Option.getD_none, List.length_drop]
    omega
  short := .inl rfl

/-- The layout with zeros ahead of the digits spells the decimal. -/
theorem spells_small
    {size place : Nat}
    (outside : (decimalDigits size).length ≤ place) :
    (small size (place - (decimalDigits size).length)).Spells size place
      (place - (decimalDigits size).length + 1) 0 where
  digits_eq := by simp [small, digits, List.replicate_succ]
  place := by
    right
    simp only [small, Option.getD_none, List.length_append, List.length_replicate]
    omega
  short := .inl rfl

/-- Without a power of ten there are no more digits in front of the point than are shown. -/
theorem exists_positional
    {size : Nat}
    {scale : Int}
    (few : digitCount size - scale ≤ Decimal.outputPrecision) :
    ∃ (numeral : Numeral) (front behind : Nat),
      Decimal.positional (decimalDigits size) scale = numeral.chars ∧
        numeral.Spells size scale front behind := by
  unfold Decimal.positional
  split
  next nonpos =>
    split
    next zero =>
      -- zero is written without the zeros that its scale would put behind it
      have isZero : size = 0 := decimalDigits_eq_zero_iff.1 zero
      refine ⟨integral size 0, 0, 0, ?_, spells_integral (.inl isZero) (.inl rfl)⟩
      simp [integral, chars, coefficient]
    next nonzero =>
      refine ⟨integral size (-scale).toNat, 0, (-scale).toNat, ?_, spells_integral ?_ ?_⟩
      · simp [integral, chars, coefficient]
      · right
        omega
      · right
        omega
  next positive =>
    obtain ⟨place, rfl⟩ := Int.eq_ofNat_of_zero_le (Int.le_of_lt (Int.not_le.1 positive))
    rw [Int.toNat_natCast]
    split
    next inside =>
      have within : place < (decimalDigits size).length := by exact_mod_cast inside
      refine ⟨pointed size place within, 0, 0, ?_, spells_pointed within⟩
      have fractional : (pointed size place within).fraction ≠ [] := by
        simp only [pointed, Ne, List.drop_eq_nil_iff]
        omega
      rw [chars, coefficient_of_ne_nil _ fractional]
      simp [pointed]
    next outside =>
      have beyond : (decimalDigits size).length ≤ place := by exact_mod_cast Int.not_lt.1 outside
      refine ⟨small size (place - (decimalDigits size).length), _, 0, ?_, spells_small beyond⟩
      simp [small, chars, coefficient, decimalDigits_ne_nil]

end Numeral

/-! ## Texts -/

namespace Decimal

/-- The place of the first digit, counted from the one in front of the point. -/
def firstPlace (number : Decimal) : Int :=
  number.digits - 1 - number.scale

/-- The place of the first digit is the decimal logarithm of the size. -/
theorem firstPlace_eq_log {number : Decimal} (nonzero : number.value ≠ 0) :
    number.firstPlace = Int.log 10 |number.value| := by
  have places := digits_sub_scale nonzero
  unfold firstPlace
  omega

theorem log_lt_iff {size : ℚ} (positive : 0 < size) (power : Int) :
    Int.log 10 size < power ↔ size < 10 ^ power := by
  exact_mod_cast (Int.lt_zpow_iff_log_lt (b := 10) (by decide) positive).symm

/-- The scale that goes with the place of the first digit as 64 bits hold it. -/
def shownScale (number : Decimal) : Int :=
  number.digits - 1 - held number.firstPlace

/-- The number with the place of its first digit as 64 bits hold it. -/
def shown (number : Decimal) : Decimal :=
  ⟨number.unscaled, number.shownScale⟩

/-- The scale that is shown is the real one when the place of the first digit is in range. -/
theorem shownScale_eq_iff {number : Decimal} :
    number.shownScale = number.scale ↔ IsInt64 number.firstPlace := by
  rw [← held_eq_self_iff, shownScale, firstPlace]
  omega

/-- The characters of a decimal without its sign. -/
def sizeChars (number : Decimal) : List Char :=
  let written := decimalDigits number.unscaled.natAbs
  let exponent : Int := written.length - 1 - number.scale
  if exponent < leastPositional ∨ (outputPrecision : Int) ≤ exponent then
    scientific written (held exponent)
  else positional written number.scale

theorem chars_eq (number : Decimal) :
    number.chars = if number.unscaled < 0 then '-' :: number.sizeChars else number.sizeChars := rfl

theorem mem_scientific (written : List Char) (exponent : Int) :
    'E' ∈ scientific written exponent := by
  simp [scientific]

/-- Whatever the layout, the characters are a numeral that spells the digits. -/
theorem exists_numeral (number : Decimal) :
    ∃ (numeral : Numeral) (front behind : Nat),
      number.sizeChars = numeral.chars ∧
        numeral.Spells number.unscaled.natAbs number.shownScale front behind := by
  unfold sizeChars
  dsimp only
  rw [length_decimalDigits]
  split
  next =>
    have exponent : held number.firstPlace =
        (decimalDigits number.unscaled.natAbs).length - 1 - number.shownScale := by
      rw [length_decimalDigits, shownScale, digits]
      omega
    refine ⟨_, 0, 0, ?_, Numeral.spells_scientific _ _⟩
    rw [← exponent]
    rfl
  next ordinary =>
    have inRange : IsInt64 number.firstPlace := by
      unfold leastPositional outputPrecision at ordinary
      unfold IsInt64 firstPlace digits
      omega
    rw [shownScale_eq_iff.2 inRange]
    refine Numeral.exists_positional ?_
    omega

/-- The text of a decimal is what is written for its rounding. -/
theorem toList_toText (number : Decimal) :
    number.toText.toList = (number.rounded outputPrecision).chars :=
  String.toList_ofList

/-- A scale beyond 64 bits leads to a power of ten that is written, and it is the same whether
the scale has been held or not. -/
theorem chars_held
    {unscaled scale : Int}
    (least : -0xc000000000000000 ≤ scale)
    (most : scale < 0x8000000000000000)
    (few : digitCount unscaled.natAbs ≤ 0x2000000000000000) :
    chars ⟨unscaled, held scale⟩ = chars ⟨unscaled, scale⟩ := by
  by_cases inRange : IsInt64 scale
  · rw [held_eq_self_iff.2 inRange]
  · unfold IsInt64 at inRange
    have low : held scale = scale + 0x10000000000000000 := by
      unfold held
      omega
    have same : held (digitCount unscaled.natAbs - 1 - held scale) =
        held (digitCount unscaled.natAbs - 1 - scale) := by
      rw [low]
      unfold held
      omega
    have tiny : digitCount unscaled.natAbs - 1 - held scale < leastPositional := by
      unfold leastPositional
      omega
    have huge : (outputPrecision : Int) ≤ digitCount unscaled.natAbs - 1 - scale := by
      unfold outputPrecision
      omega
    have size : sizeChars ⟨unscaled, held scale⟩ = sizeChars ⟨unscaled, scale⟩ := by
      unfold sizeChars
      dsimp only
      rw [length_decimalDigits, if_pos (Or.inl tiny), if_pos (Or.inr huge), same]
    rw [chars_eq, chars_eq, size]

/-- What is shown are the characters of the number as it is rounded for others. -/
theorem toText_eq
    {number : Decimal}
    (inRange : IsInt64 number.scale)
    (few : number.digits ≤ 0x4000000000000000) :
    number.toText = String.ofList (number.roundTo outputPrecision).chars := by
  unfold IsInt64 at inRange
  have scale := number.scale_rounded outputPrecision
  have atMost : (number.rounded outputPrecision).digits ≤ outputPrecision + 1 := by
    rw [digits_rounded (by decide)]
    split <;> omega
  rw [toText, roundTo, chars_held]
  · omega
  · omega
  · exact atMost.trans (by decide)

end Decimal

/-! ## Digits that are shown -/

/-- The digits that are shown are those of the size and the zeros behind them. -/
theorem Numeral.Spells.shownDigits_eq
    {numeral : Numeral}
    {size : Nat}
    {scale : Int}
    {front behind : Nat}
    (spells : numeral.Spells size scale front behind) :
    shownDigits numeral.chars = if size = 0 then 0 else digitCount size + behind := by
  rw [numeral.shownDigits_chars, spells.digits_eq, List.append_assoc]
  by_cases zero : size = 0
  · rw [if_pos zero, zero, List.length_eq_zero_iff, List.dropWhile_eq_nil_iff]
    intro character member
    rw [decimalDigits_eq_zero_iff.2 rfl, ← List.replicate_one, List.replicate_append_replicate,
      List.replicate_append_replicate] at member
    exact decide_eq_true (List.eq_of_mem_replicate member)
  · have inFront : (List.replicate front '0').dropWhile (· = '0') = [] :=
      List.dropWhile_eq_nil_iff.2 fun _ member => decide_eq_true (List.eq_of_mem_replicate member)
    have remains : ¬(decimalDigits size).isEmpty = true :=
      mt List.isEmpty_iff.1 (decimalDigits_ne_nil size)
    rw [if_neg zero, List.dropWhile_append, inFront, if_pos List.isEmpty_nil, List.dropWhile_append,
      dropWhile_decimalDigits zero, if_neg remains, List.length_append, length_decimalDigits,
      List.length_replicate]

namespace Decimal

/-- A text shows more digits than it should only if the rounded number has more of them. -/
theorem shownDigits_chars_le_iff (number : Decimal) :
    shownDigits number.chars ≤ outputPrecision ↔ number.digits ≤ outputPrecision := by
  obtain ⟨numeral, front, behind, written, spells⟩ := number.exists_numeral
  have unsigned : shownDigits number.chars = shownDigits numeral.chars := by
    rw [chars_eq, written]
    split
    next => exact shownDigits_sign _
    next => rfl
  rw [unsigned, spells.shownDigits_eq]
  split
  next zero =>
    have single : number.digits ≤ outputPrecision :=
      (digitCount_le_iff (by decide)).2 (zero ▸ Nat.pow_pos (by decide))
    exact iff_of_true (Nat.zero_le _) single
  next nonzero =>
    have short := spells.short
    unfold digits
    omega

/-- A text shows too many digits exactly when rounding carries. -/
theorem shownDigits_toText_le_iff (number : Decimal) :
    shownDigits number.toText.toList ≤ outputPrecision ↔ ¬number.Carries outputPrecision := by
  rw [toList_toText, shownDigits_chars_le_iff, digits_rounded_le_iff (by decide)]

/-- Rounding keeps to a number of significant digits exactly when it does not carry beyond the
first of them; so does the text of a decimal with the digits that are shown, and a trimmed
decimal with the ones that are kept. -/
theorem keeps_precision_iff (number : Decimal) :
    (∀ precision, 1 ≤ precision →
      ((number.rounded precision).digits ≤ precision ↔ ¬number.Carries precision)) ∧
    (shownDigits number.toText.toList ≤ outputPrecision ↔ ¬number.Carries outputPrecision) ∧
    ∃ trimmed, (Number.precise number).trimmed = .precise trimmed ∧
      (trimmed.digits ≤ powerPrecision ↔ ¬number.Carries powerPrecision) :=
  ⟨fun _ atLeastOne => digits_rounded_le_iff atLeastOne, number.shownDigits_toText_le_iff,
    _, rfl, digits_rounded_le_iff (by decide)⟩

theorem keeps_precision_below_carry :
    ¬(⟨9994, 3⟩ : Decimal).Carries 3 ∧ ((⟨9994, 3⟩ : Decimal).rounded 3).digits ≤ 3 :=
  ⟨by decide +kernel, ((keeps_precision_iff ⟨9994, 3⟩).1 3 (by decide)).2 (by decide +kernel)⟩

/-- Rounding leaves one digit more than it should, a text shows one more and trimming keeps one
more. -/
theorem exceeds_precision_nines :
    ((⟨9999, 3⟩ : Decimal).rounded 3 = ⟨1000, 2⟩ ∧ ¬(⟨1000, 2⟩ : Decimal).digits ≤ 3) ∧
      ¬shownDigits (⟨10 ^ 51 - 1, 0⟩ : Decimal).toText.toList ≤ outputPrecision ∧
      (Number.precise ⟨10 ^ 81 - 1, 0⟩).trimmed = .precise ⟨10 ^ 80, -1⟩ ∧
      ¬(⟨10 ^ 80, -1⟩ : Decimal).digits ≤ powerPrecision := by
  decide +kernel

end Decimal
end Reckoner
