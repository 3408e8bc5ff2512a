import Reckoner.Pattern.Regex
import Mathlib

/-!
# Languages of regular expressions

The set of texts that a regular expression stands for, by its structure alone.
-/

open scoped Computability

namespace Reckoner

/-- The texts of one character that a step accepts. -/
def Step.language (step : Step) : Language Char :=
  { text | ∃ character, step.accepts character = true ∧ text = [character] }

/-- A step accepts the texts of one accepted character. -/
theorem Step.mem_language
    {step : Step}
    {text : List Char} :
    text ∈ step.language ↔ ∃ character, step.accepts character = true ∧ text = [character] :=
  Iff.rfl

theorem Step.language_exactly (character : Char) :
    (Step.exactly character).language = {[character]} := by
  ext text
  constructor
  · rintro ⟨_, accepts, rfl⟩
    rw [Step.accepts_exactly, beq_iff_eq] at accepts
    rw [accepts]
    rfl
  · rintro rfl
    exact ⟨character, by simp, rfl⟩

theorem Step.language_between (low high : Char) :
    (Step.between low high).language =
      { text | ∃ character, low ≤ character ∧ character ≤ high ∧ text = [character] } := by
  ext text
  simp [Step.mem_language, Step.accepts, and_assoc]
  rfl

theorem Step.language_anything :
    Step.anything.language = { text | ∃ character, text = [character] } := by
  ext text
  simp [Step.mem_language]
  rfl

namespace Regex

mutual

/-- The texts that a regular expression stands for. -/
def language : Regex → Language Char
  | .single step => step.language
  | .sequence first second => first.language * second.language
  | .choice alternatives => languageOfAny alternatives
  | .oneOrMore body => body.language * body.language∗
  | .zeroOrMore body => body.language∗
  | .zeroOrOne body => 1 + body.language

/-- The texts that some regular expression of a list stands for. -/
def languageOfAny : List Regex → Language Char
  | [] => 0
  | first :: rest => first.language + languageOfAny rest

end

@[simp] theorem language_single (step : Step) : (single step).language = step.language := rfl

@[simp] theorem language_sequence (first second : Regex) :
    (sequence first second).language = first.language * second.language := rfl

@[simp] theorem language_choice (alternatives : List Regex) :
    (choice alternatives).language = languageOfAny alternatives := rfl

@[simp] theorem language_oneOrMore (body : Regex) :
    (oneOrMore body).language = body.language * body.language∗ := rfl

@[simp] theorem language_zeroOrMore (body : Regex) :
    (zeroOrMore body).language = body.language∗ := rfl

@[simp] theorem language_zeroOrOne (body : Regex) :
    (zeroOrOne body).language = 1 + body.language := rfl

@[simp] theorem languageOfAny_nil : languageOfAny [] = 0 := rfl

@[simp] theorem languageOfAny_cons (first : Regex) (rest : List Regex) :
    languageOfAny (first :: rest) = first.language + languageOfAny rest := rfl

/-- The alternatives of two lists are those of either. -/
theorem languageOfAny_append (first second : List Regex) :
    languageOfAny (first ++ second) = languageOfAny first + languageOfAny second := by
  induction first with
  | nil => rw [List.nil_append, languageOfAny_nil, zero_add]
  | cons regex rest hypothesis =>
      rw [List.cons_append, languageOfAny_cons, languageOfAny_cons, hypothesis, add_assoc]

/-- The texts that what has been read stands for: without a regular expression, the empty text
alone. -/
def languageOfOption : Option Regex → Language Char
  | none => 1
  | some regex => regex.language

end Regex
end Reckoner
