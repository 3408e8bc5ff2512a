import Reckoner.Number.Literal
import Reckoner.Proofs.Number.Precision

/-!
# Numerals

A text is read as digits, perhaps with a point between them, or as such digits with one in front
of the point, followed by a power of ten.  A numeral is a text that has been put together in this
way.  It is read as the number that it was put together for, and where it has no power of ten,
the reader of literals finds the same number.
-/

namespace Reckoner

/-! ## Reading -/

/-- How many significant digits a text shows: those in front of a power of ten, from the first
that is not zero. -/
def shownDigits (text : List Char) : Nat :=
  (((text.takeWhile (· ≠ 'E')).filter Char.isDigit).dropWhile (· = '0')).length

theorem shownDigits_sign (text : List Char) : shownDigits ('-' :: text) = shownDigits text := rfl

theorem point_not_mem {text : List Char} (areDigits : ∀ character ∈ text, character.isDigit) :
    '.' ∉ text :=
  fun member => absurd (areDigits '.' member) (by decide)

/-! ## The digits of a natural number -/

theorem decimalDigits_ne_nil (number : Nat) : decimalDigits number ≠ [] :=
  Nat.toDigits_ne_nil

theorem isDigit_of_mem_decimalDigits
    {number : Nat}
    {character : Char}
    (member : character ∈ decimalDigits number) :
    character.isDigit :=
  Nat.isDigit_of_mem_toDigits (by decide) (by decide) member

@[simp] theorem ofDigitChars_decimalDigits (number : Nat) :
    Nat.ofDigitChars 10 (decimalDigits number) 0 = number :=
  Nat.ofDigitChars_ten_toDigits

/-- As many digits are written as are counted. -/
theorem length_decimalDigits (number : Nat) :
    (decimalDigits number).length = digitCount number := by
  have ten : 1 < 10 := by decide
  refine le_antisymm ?_ ?_
  · refine (Nat.length_toDigits_le_iff ten ?_).2 (lt_pow_digitCount number)
    rw [digitCount_eq_log]
    exact Nat.succ_pos _
  · exact (digitCount_le_iff Nat.length_toDigits_pos).2
      ((Nat.length_toDigits_le_iff ten Nat.length_toDigits_pos).1 le_rfl)

/-- The first digit is a zero only for zero. -/
theorem dropWhile_decimalDigits {number : Nat} (nonzero : number ≠ 0) :
    (decimalDigits number).dropWhile (· = '0') = decimalDigits number := by
  induction number using Nat.strongRecOn with
  | ind number hypothesis =>
      unfold decimalDigits at *
      rcases Nat.lt_or_ge number 10 with small | large
      · have positive : 1 ≤ number := Nat.pos_of_ne_zero nonzero
        rw [Nat.toDigits_of_lt_base small]
        interval_cases number <;> rfl
      · -- the digits in front of the last one are those of a smaller number, which is not zero
        rw [Nat.toDigits_of_base_le (by decide) large, List.dropWhile_append,
          hypothesis (number / 10) (by omega) (by omega), if_neg]
        simp [Nat.toDigits_ne_nil]

theorem decimalDigits_eq_zero_iff {size : Nat} : decimalDigits size = ['0'] ↔ size = 0 := by
  constructor
  · intro written
    have read := ofDigitChars_decimalDigits size
    rw [written] at read
    exact read.symm
  · rintro rfl
    rfl

/-! ## Literals -/

namespace Literal

/-- A text is split at its first point. -/
theorem splitPoint_append {whole : List Char} (noPoint : '.' ∉ whole) (fraction : List Char) :
    splitPoint (whole ++ '.' :: fraction) = (whole, fraction) := by
  induction whole with
  | nil => rfl
  | cons character others hypothesis =>
      rw [List.mem_cons, not_or] at noPoint
      rw [List.cons_append, splitPoint, hypothesis noPoint.2]
      exact fun point => noPoint.1 point.symm

/-- A text without a point is all whole part. -/
theorem splitPoint_of_not_mem {text : List Char} (noPoint : '.' ∉ text) :
    splitPoint text = (text, []) := by
  induction text with
  | nil => rfl
  | cons character others hypothesis =>
      rw [List.mem_cons, not_or] at noPoint
      rw [splitPoint, hypothesis noPoint.2]
      exact fun point => noPoint.1 point.symm

/-- What the reader of literals checks of the parts in front of the point and behind it. -/
theorem readSize?_eq_some_iff {negative : Bool} {text : List Char} {literal : Literal} :
    readSize? negative text = some literal ↔
      ∃ whole fraction, splitPoint text = (whole, fraction) ∧ whole ++ fraction ≠ [] ∧
        (∀ character ∈ whole ++ fraction, character.isDigit) ∧
        literal = ⟨negative, Nat.ofDigitChars 10 (whole ++ fraction) 0, fraction.length⟩ := by
  rcases parts : splitPoint text with ⟨whole, fraction⟩
  have accepted : (!(whole ++ fraction).isEmpty && (whole ++ fraction).all isDigit) = true ↔
      whole ++ fraction ≠ [] ∧ ∀ character ∈ whole ++ fraction, character.isDigit := by
    rw [Bool.and_eq_true, Bool.not_eq_true', List.isEmpty_eq_false_iff, List.all_eq_true]
    exact Iff.rfl
  rw [readSize?, parts]
  dsimp only
  constructor
  · intro reads
    split at reads
    next fine =>
      obtain rfl := Option.some.inj reads
      exact ⟨whole, fraction, rfl, (accepted.1 fine).1, (accepted.1 fine).2, rfl⟩
    next => cases reads
  · rintro ⟨_, _, same, nonempty, areDigits, rfl⟩
    obtain ⟨rfl, rfl⟩ := Prod.mk.inj same
    exact if_pos (accepted.2 ⟨nonempty, areDigits⟩)

end Literal

/-! ## Numerals -/

/-- A power of ten as it is written. -/
def exponentChars (exponent : Int) : List Char :=
  (if 0 ≤ exponent then ['+'] else ['-']) ++ decimalDigits exponent.natAbs

/-- A number without a sign as it is written: digits in front of a point and behind it, and
perhaps a power of ten. -/
structure Numeral where
  whole : List Char
  fraction : List Char
  exponent : Option Int
  nonempty : whole ≠ []
  areDigits : ∀ character ∈ whole ++ fraction, character.isDigit
  oneDigit : exponent.isSome → whole.length = 1

namespace Numeral

/-- All digits of a numeral. -/
def digits (numeral : Numeral) : List Char :=
  numeral.whole ++ numeral.fraction

/-- The digits with the point. -/
def coefficient (numeral : Numeral) : List Char :=
  numeral.whole ++ if numeral.fraction.isEmpty then [] else '.' :: numeral.fraction

/-- The characters of a numeral. -/
def chars (numeral : Numeral) : List Char :=
  numeral.coefficient ++ numeral.exponent.elim [] fun exponent => 'E' :: exponentChars exponent

/-- The number that the digits and the point denote. -/
def coefficientValue (numeral : Numeral) : ℚ :=
  Nat.ofDigitChars 10 numeral.digits 0 / 10 ^ numeral.fraction.length

/-- The number that a numeral denotes. -/
def value (numeral : Numeral) : ℚ :=
  numeral.coefficientValue * 10 ^ numeral.exponent.getD 0

variable (numeral : Numeral)

theorem isDigit_of_mem_whole {character : Char} (member : character ∈ numeral.whole) :
    character.isDigit :=
  numeral.areDigits character (List.mem_append_left _ member)

theorem isDigit_of_mem_fraction {character : Char} (member : character ∈ numeral.fraction) :
    character.isDigit :=
  numeral.areDigits character (List.mem_append_right _ member)

theorem coefficient_of_nil (integral : numeral.fraction = []) :
    numeral.coefficient = numeral.whole := by
  rw [coefficient, integral, List.isEmpty_nil, if_pos rfl, List.append_nil]

theorem coefficient_of_ne_nil (fractional : numeral.fraction ≠ []) :
    numeral.coefficient = numeral.whole ++ '.' :: numeral.fraction := by
  rw [coefficient, if_neg (mt List.isEmpty_iff.1 fractional)]

/-- A coefficient has digits and a point, nothing else. -/
theorem isDigit_or_eq_of_mem_coefficient
    {character : Char}
    (member : character ∈ numeral.coefficient) :
    character.isDigit ∨ character = '.' := by
  by_cases integral : numeral.fraction = []
  · rw [coefficient_of_nil numeral integral] at member
    exact .inl (numeral.isDigit_of_mem_whole member)
  · rw [coefficient_of_ne_nil numeral integral, List.mem_append, List.mem_cons] at member
    rcases member with whole | point | fraction
    · exact .inl (numeral.isDigit_of_mem_whole whole)
    · exact .inr point
    · exact .inl (numeral.isDigit_of_mem_fraction fraction)

theorem not_mem_coefficient : 'E' ∉ numeral.coefficient := by
  intro member
  rcases numeral.isDigit_or_eq_of_mem_coefficient member with digit | point
  · exact absurd digit (by decide)
  · exact absurd point (by decide)

/-- The decimal of what the reader of literals finds has the value of the numeral. -/
theorem value_toDecimal (plain : numeral.exponent = none) (negative : Bool) :
    (Literal.toDecimal
        ⟨negative, Nat.ofDigitChars 10 numeral.digits 0, numeral.fraction.length⟩).value =
      if negative then -numeral.value else numeral.value := by
  rw [Literal.toDecimal, Decimal.value_mk, value, coefficientValue, plain, Option.getD_none,
    zpow_zero, mul_one, zpow_neg, zpow_natCast, div_eq_mul_inv]
  cases negative with
  | false => simp
  | true => simp

/-- The digits that are shown are those of the numeral after its leading zeros. -/
theorem shownDigits_chars :
    shownDigits numeral.chars = (numeral.digits.dropWhile (· = '0')).length := by
  have coefficient : numeral.chars.takeWhile (· ≠ 'E') = numeral.coefficient := by
    rw [chars, List.takeWhile_append_of_pos]
    · cases numeral.exponent with
      | none => simp
      | some exponent => simp
    · intro character member
      exact decide_eq_true fun same => numeral.not_mem_coefficient (same ▸ member)
  have digits : numeral.coefficient.filter Char.isDigit = numeral.digits := by
    rw [Numeral.coefficient, List.filter_append, Numeral.digits]
    congr 1
    · exact List.filter_eq_self.2 fun _ => numeral.isDigit_of_mem_whole
    · split
      next integral => rw [List.isEmpty_iff.1 integral, List.filter_nil]
      next => exact List.filter_eq_self.2 fun _ => numeral.isDigit_of_mem_fraction
  rw [shownDigits, coefficient, digits]

end Numeral

/-- A literal without a leading minus is read as a size. -/
theorem Literal.read?_of_ne
    {text : List Char}
    (unsigned : ∀ rest, text ≠ '-' :: rest) :
    Literal.read? text = Literal.readSize? false text := by
  unfold Literal.read?
  split
  next rest => exact absurd rfl (unsigned rest)
  next => rfl

end Reckoner
