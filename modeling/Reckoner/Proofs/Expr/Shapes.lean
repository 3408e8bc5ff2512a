import Reckoner.Proofs.Lexer.Cutting
import Reckoner.Proofs.Pattern.Literal

/-!
# The shapes that every tokenizer knows

What the patterns for spaces, commas, numbers, variables and parentheses match.
-/

open scoped Computability

namespace Reckoner

open Dialect

namespace Tokenizer

/-! ## Languages -/

/-- The texts of one character in a range. -/
def range (low high : Char) : Language Char :=
  { text | ∃ character, low ≤ character ∧ character ≤ high ∧ text = [character] }

/-- One decimal digit. -/
def digit : Language Char :=
  range '0' '9'

/-- One letter. -/
def letter : Language Char :=
  range 'a' 'z' + range 'A' 'Z'

theorem leading_of_ne
    {character : Char}
    (unescaped : character ≠ '\\')
    (not_close : character ≠ ']')
    (not_dash : character ≠ '-') :
    Leading [character] character :=
  ⟨.plain unescaped, by simpa using not_close, by simpa using not_dash⟩

theorem atom_digit : Atom ['[', '0', '-', '9', ']'] digit :=
  .members (.last (.between (leading_of_ne (by decide) (by decide) (by decide))
    (.plain (by decide)) (by decide)))

theorem atom_letter : Atom ['[', 'a', '-', 'z', 'A', '-', 'Z', ']'] letter :=
  .members (.more
    (.between (leading_of_ne (by decide) (by decide) (by decide)) (.plain (by decide)) (by decide))
    (.last (.between (leading_of_ne (by decide) (by decide) (by decide)) (.plain (by decide))
      (by decide))))

theorem denotes_number :
    Denotes "[0-9]*(\\.[0-9]+)?".toList (digit∗ * (1 + {['.']} * (digit * digit∗))) := by
  have fraction : Atom ['(', '\\', '.', '[', '0', '-', '9', ']', '+', ')']
      ({['.']} * (digit * digit∗)) :=
    .group (.last (.more (.once (.escaped '.')) (.last (.oneOrMore atom_digit))))
  exact .alternatives (.last (.more (.zeroOrMore atom_digit) (.last (.zeroOrOne fraction))))

theorem denotes_variable : Denotes "[a-zA-Z]+".toList (letter * letter∗) :=
  .alternatives (.last (.last (.oneOrMore atom_letter)))

theorem denotes_single
    {source : List Char}
    {character : Char}
    (atom : Atom source {[character]}) :
    Denotes source {[character]} :=
  .alternatives (.last (.last (.once atom)))

/-- What the shapes of a kind match. -/
def shapeOf : TokenKind → Language Char
  | .whitespace => {[' ']}
  | .comma => {[',']}
  | .number => digit∗ * (1 + {['.']} * (digit * digit∗))
  | .variable => letter * letter∗
  | .openParen => {['(']}
  | .closeParen => {[')']}
  | _ => 0

theorem denotes_of_mem_basePatterns
    {entry : String × TokenKind}
    (member : entry ∈ basePatterns) :
    Denotes entry.1.toList (shapeOf entry.2) := by
  simp only [basePatterns, List.mem_cons, List.not_mem_nil, or_false] at member
  rcases member with rfl | rfl | rfl | rfl | rfl | rfl
  · exact denotes_single (.plain (by decide))
  · exact denotes_single (.plain (by decide))
  · exact denotes_number
  · exact denotes_variable
  · exact denotes_single (.escaped '(')
  · exact denotes_single (.escaped ')')

/-- Every kind whose shapes match anything has a pattern among those that every tokenizer knows. -/
theorem exists_mem_basePatterns
    {kind : TokenKind}
    {text : List Char}
    (shaped : text ∈ shapeOf kind) :
    ∃ source, (source, kind) ∈ basePatterns := by
  cases kind with
  | whitespace => exact ⟨" ", by decide⟩
  | comma => exact ⟨",", by decide⟩
  | number => exact ⟨"[0-9]*(\\.[0-9]+)?", by decide⟩
  | «variable» => exact ⟨"[a-zA-Z]+", by decide⟩
  | openParen => exact ⟨"\\(", by decide⟩
  | closeParen => exact ⟨"\\)", by decide⟩
  | functionEnd | any | operator _ | function _ => exact absurd shaped (Language.notMem_zero text)

/-! ## Numbers -/

theorem exists_isDigit_of_mem_digit {text : List Char} (member : text ∈ digit) :
    ∃ character, text = [character] ∧ character.isDigit = true := by
  obtain ⟨character, low, high, rfl⟩ := member
  refine ⟨character, rfl, ?_⟩
  simp only [Char.isDigit, Bool.and_eq_true, decide_eq_true_eq]
  exact ⟨low, high⟩

/-- Every character of a repetition occurs in one of its parts. -/
theorem forall_mem_of_mem_kstar
    {language : Language Char}
    {good : Char → Prop}
    (parts : ∀ part ∈ language, ∀ character ∈ part, good character)
    {text : List Char}
    (repeated : text ∈ language∗) :
    ∀ character ∈ text, good character := by
  obtain ⟨pieces, rfl, members⟩ := Language.mem_kstar.1 repeated
  intro character member
  obtain ⟨part, inPieces, inPart⟩ := List.mem_flatten.1 member
  exact parts part (members part inPieces) character inPart

/-- A number is digits, or has a point with digits behind it. -/
theorem digits_of_mem_number {text : List Char} (numeral : text ∈ shapeOf .number) :
    (∀ character ∈ text, character.isDigit) ∨
      ∃ whole fraction, text = whole ++ '.' :: fraction ∧ fraction ≠ [] ∧
        ∀ character ∈ whole ++ fraction, character.isDigit := by
  have single : ∀ part ∈ digit, ∀ character ∈ part, character.isDigit := by
    intro part member character inside
    obtain ⟨figure, rfl, isDigit⟩ := exists_isDigit_of_mem_digit member
    obtain rfl := List.mem_singleton.1 inside
    exact isDigit
  obtain ⟨whole, inWhole, fraction, inFraction, rfl⟩ := Language.mem_mul.1 numeral
  have wholeDigits := forall_mem_of_mem_kstar single inWhole
  rcases inFraction with none | ⟨point, rfl, decimals, inDecimals, rfl⟩
  · obtain rfl := none
    exact .inl (by simpa using wholeDigits)
  · obtain ⟨first, inFirst, others, inOthers, rfl⟩ := Language.mem_mul.1 inDecimals
    obtain ⟨figure, rfl, isDigit⟩ := exists_isDigit_of_mem_digit inFirst
    refine .inr ⟨whole, figure :: others, rfl, List.cons_ne_nil _ _, ?_⟩
    rw [List.forall_mem_append, List.forall_mem_cons]
    exact ⟨wholeDigits, isDigit, forall_mem_of_mem_kstar single inOthers⟩

end Tokenizer
end Reckoner
