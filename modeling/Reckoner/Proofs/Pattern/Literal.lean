import Reckoner.Proofs.Pattern.Matching

/-!
# Literal patterns

Escaping a text gives a source that compiles to a pattern which matches this text and no other.
-/

open scoped Computability

namespace Reckoner
namespace Pattern

open Dialect

theorem isSpecial_of_mem_reserved
    {character : Char}
    (member : character ∈ reserved) :
    isSpecial character = true := by
  simp only [reserved, List.mem_cons, List.not_mem_nil, or_false] at member
  rcases member with rfl | rfl | rfl | rfl | rfl | rfl | rfl | rfl | rfl <;> decide

/-- A character is written literally as an atom that stands for it. -/
theorem atom_literal (character : Char) : Atom (literalChars [character]) {[character]} := by
  cases special : isSpecial character with
  | true =>
      have source : literalChars [character] = ['\\', character] := by
        simp [literalChars, special]
      rw [source]
      exact .escaped character
  | false =>
      have source : literalChars [character] = [character] := by
        simp [literalChars, special]
      rw [source]
      refine .plain fun member => ?_
      rw [isSpecial_of_mem_reserved member] at special
      cases special

theorem singleton_mul (character : Char) (rest : List Char) :
    ({[character]} : Language Char) * {rest} = {character :: rest} := by
  ext text
  rw [Language.mem_mul]
  constructor
  · rintro ⟨_, rfl, _, rfl, rfl⟩
    rfl
  · rintro rfl
    exact ⟨[character], rfl, rest, rfl, rfl⟩

/-- A text is written literally as a sequence that stands for it. -/
theorem sequence_literal (character : Char) (rest : List Char) :
    Sequence (literalChars (character :: rest)) {character :: rest} := by
  induction rest generalizing character with
  | nil => exact .last (.once (atom_literal character))
  | cons next rest hypothesis =>
      have split : literalChars (character :: next :: rest) =
          literalChars [character] ++ literalChars (next :: rest) := by
        simp [literalChars]
      rw [split, ← singleton_mul]
      exact .more (.once (atom_literal character)) (hypothesis next)

/-- A text that is written literally denotes itself alone. -/
theorem denotes_literal (text : String) : Denotes (literal text).toList {text.toList} := by
  rw [literal, String.toList_ofList]
  cases text.toList with
  | nil => exact .empty
  | cons first rest => exact .alternatives (.last (sequence_literal first rest))

/-- A text that is written literally compiles, and matches itself alone. -/
theorem compile_literal (text : String) :
    ∃ pattern, compile (literal text) = .ok pattern ∧
      ∀ other : String, pattern.isMatch other = true ↔ other = text := by
  obtain ⟨pattern, compiled, accepts⟩ := (denotes_iff_compile _ _).1 (denotes_literal text)
  refine ⟨pattern, compiled, fun other => ?_⟩
  rw [accepts]
  exact String.toList_inj

theorem literal_injective : Function.Injective literal := by
  intro first second same
  have denotes := denotes_literal first
  rw [same] at denotes
  have alone : ({first.toList} : Language Char) = {second.toList} :=
    language_eq_of_denotes denotes (denotes_literal second)
  exact String.toList_injective (Set.singleton_injective alone)

theorem source_of_compile
    {source : String}
    {pattern : Pattern}
    (compiled : compile source = .ok pattern) :
    pattern.source = source := by
  obtain ⟨_, _, rfl⟩ := compile_eq_ok_iff.1 compiled
  rfl

end Pattern
end Reckoner
