import Reckoner.Number
import Reckoner.Proofs.Number.Numeral

/-!
# What is a literal

A literal is digits with at most one point in front of, among or behind them, perhaps with a
minus sign in front, and denotes a number in the usual way.  The reader of literals reads these
texts and no others, and the decimal that it finds is exactly the number that the text denotes.
-/

namespace Reckoner
namespace Literal

/-! ## The grammar -/

/-- What digits without a sign denote, of which some may stand behind a point. -/
inductive DenotesSize : List Char → ℚ → Prop
  | integral
      {digits : List Char}
      (nonempty : digits ≠ [])
      (areDigits : ∀ character ∈ digits, character.isDigit) :
      DenotesSize digits (Nat.ofDigitChars 10 digits 0)
  | pointed
      {whole fraction : List Char}
      (nonempty : whole ++ fraction ≠ [])
      (areDigits : ∀ character ∈ whole ++ fraction, character.isDigit) :
      DenotesSize (whole ++ '.' :: fraction)
        (Nat.ofDigitChars 10 whole 0 + Nat.ofDigitChars 10 fraction 0 / 10 ^ fraction.length)

/-- What a literal denotes: digits, or a minus sign and digits. -/
inductive Denotes : List Char → ℚ → Prop
  | size {text : List Char} {value : ℚ} (denotes : DenotesSize text value) : Denotes text value
  | opposite {text : List Char} {value : ℚ} (denotes : DenotesSize text value) :
      Denotes ('-' :: text) (-value)

/-- A literal without a sign does not begin with one. -/
theorem DenotesSize.ne_sign
    {text : List Char}
    {value : ℚ}
    (denotes : DenotesSize text value)
    (rest : List Char) :
    text ≠ '-' :: rest := by
  have unsigned : '-' ∉ text := by
    intro member
    cases denotes with
    | integral _ areDigits => exact absurd (areDigits '-' member) (by decide)
    | pointed _ areDigits =>
        rw [List.mem_append, List.mem_cons, or_left_comm, ← List.mem_append] at member
        rcases member with point | digit
        · exact absurd point (by decide)
        · exact absurd (areDigits '-' digit) (by decide)
  rintro rfl
  exact unsigned List.mem_cons_self

/-! ## Reading -/

/-- Digits that are read as one integer, and then scaled down, denote what the two parts denote. -/
theorem value_toDecimal (negative : Bool) (whole fraction : List Char) :
    (toDecimal ⟨negative, Nat.ofDigitChars 10 (whole ++ fraction) 0, fraction.length⟩).value =
      (if negative then -1 else 1) *
        (Nat.ofDigitChars 10 whole 0 + Nat.ofDigitChars 10 fraction 0 / 10 ^ fraction.length) := by
  have joined : Nat.ofDigitChars 10 (whole ++ fraction) 0 =
      10 ^ fraction.length * Nat.ofDigitChars 10 whole 0 + Nat.ofDigitChars 10 fraction 0 := by
    rw [Nat.ofDigitChars_append, Nat.ofDigitChars_eq_ofDigitChars_zero]
  rw [toDecimal, Decimal.value_mk, zpow_neg, zpow_natCast, joined]
  cases negative with
  | false =>
      simp only [Bool.false_eq_true, if_false]
      push_cast
      field_simp
  | true =>
      simp only [if_true]
      push_cast
      field_simp

theorem denotesSize_of_splitPoint
    {text whole fraction : List Char}
    (parts : splitPoint text = (whole, fraction))
    (nonempty : whole ++ fraction ≠ [])
    (areDigits : ∀ character ∈ whole ++ fraction, character.isDigit) :
    DenotesSize text
      (Nat.ofDigitChars 10 whole 0 + Nat.ofDigitChars 10 fraction 0 / 10 ^ fraction.length) := by
  by_cases point : '.' ∈ text
  · obtain ⟨before, behind, rfl, noPoint⟩ := List.eq_append_cons_of_mem point
    rw [splitPoint_append noPoint] at parts
    obtain ⟨rfl, rfl⟩ := Prod.mk.inj parts
    exact .pointed nonempty areDigits
  · rw [splitPoint_of_not_mem point] at parts
    obtain ⟨rfl, rfl⟩ := Prod.mk.inj parts
    rw [List.append_nil] at nonempty areDigits
    simpa using DenotesSize.integral nonempty areDigits

/-- What is read of a text without a sign denotes the same as the text. -/
theorem denotesSize_iff (negative : Bool) {text : List Char} {value : ℚ} :
    DenotesSize text value ↔
      ∃ literal, readSize? negative text = some literal ∧
        literal.toDecimal.value = (if negative then -1 else 1) * value := by
  have sign : (if negative then -1 else 1 : ℚ) ≠ 0 := by cases negative <;> simp
  constructor
  · rintro (⟨nonempty, areDigits⟩ | ⟨nonempty, areDigits⟩)
    · refine ⟨_, readSize?_eq_some_iff.2 ⟨text, [], ?_, by simpa, by simpa, rfl⟩, ?_⟩
      · exact splitPoint_of_not_mem (point_not_mem areDigits)
      · simpa only [List.append_nil, List.length_nil, pow_zero, Nat.ofDigitChars_nil, Nat.cast_zero,
          zero_div, add_zero] using value_toDecimal negative text []
    · refine ⟨_, readSize?_eq_some_iff.2 ⟨_, _, splitPoint_append ?_ _, nonempty, areDigits, rfl⟩,
        value_toDecimal _ _ _⟩
      exact point_not_mem fun character member =>
        areDigits character (List.mem_append_left _ member)
  · rintro ⟨literal, reads, same⟩
    obtain ⟨whole, fraction, parts, nonempty, areDigits, rfl⟩ := readSize?_eq_some_iff.1 reads
    rw [value_toDecimal] at same
    exact mul_left_cancel₀ sign same ▸ denotesSize_of_splitPoint parts nonempty areDigits

/-- A text denotes a number if and only if it is read as a literal, of which the decimal is this
number. -/
theorem denotes_iff {text : List Char} {value : ℚ} :
    Denotes text value ↔ ∃ literal, read? text = some literal ∧
      literal.toDecimal.value = value := by
  constructor
  · rintro (⟨denotes⟩ | ⟨denotes⟩)
    · obtain ⟨literal, reads, same⟩ := (denotesSize_iff false).1 denotes
      exact ⟨literal, read?_of_ne denotes.ne_sign ▸ reads, by simpa using same⟩
    · obtain ⟨literal, reads, same⟩ := (denotesSize_iff true).1 denotes
      exact ⟨literal, reads, by simpa using same⟩
  · rintro ⟨literal, reads, same⟩
    unfold read? at reads
    split at reads
    next rest =>
      have size : DenotesSize rest (-value) :=
        (denotesSize_iff true).2 ⟨literal, reads, by simpa using same⟩
      exact neg_neg value ▸ .opposite size
    next => exact .size ((denotesSize_iff false).2 ⟨literal, reads, by simpa using same⟩)

end Literal

/-! ## Numbers -/

namespace Number

theorem parse_eq_ok_iff {kind : NumberKind} {text : String} {number : Number} :
    parse kind text = .ok number ↔
      ∃ literal, Literal.read? text.toList = some literal ∧ ofLiteral kind literal = number := by
  unfold parse
  split
  next literal reads => simp [reads]
  next none => simp [none]

/-- The texts that are read as precise numbers are the literals, and the numbers are exactly what
these denote. -/
theorem denotes_iff_parse_precise {text : String} {value : ℚ} :
    Literal.Denotes text.toList value ↔
      ∃ decimal, parse .precise text = .ok (.precise decimal) ∧ decimal.value = value := by
  rw [Literal.denotes_iff]
  constructor
  · rintro ⟨literal, reads, same⟩
    exact ⟨literal.toDecimal, parse_eq_ok_iff.2 ⟨literal, reads, rfl⟩, same⟩
  · rintro ⟨decimal, parses, same⟩
    obtain ⟨literal, reads, ofLiteral⟩ := parse_eq_ok_iff.1 parses
    obtain rfl : literal.toDecimal = decimal := Number.precise.inj ofLiteral
    exact ⟨literal, reads, same⟩

/-- Whether a text is read does not depend on the representation. -/
theorem exists_parse_iff {kind : NumberKind} {text : String} :
    (∃ number, parse kind text = .ok number) ↔ ∃ value, Literal.Denotes text.toList value := by
  simp only [parse_eq_ok_iff, Literal.denotes_iff]
  constructor
  · rintro ⟨_, literal, reads, _⟩
    exact ⟨_, literal, reads, rfl⟩
  · rintro ⟨_, literal, reads, _⟩
    exact ⟨_, literal, reads, rfl⟩

end Number
end Reckoner
