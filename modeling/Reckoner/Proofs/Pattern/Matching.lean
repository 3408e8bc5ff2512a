import Reckoner.Pattern
import Reckoner.Proofs.Pattern.Reading
import Reckoner.Proofs.Pattern.Recognition

/-!
# What patterns match

A source compiles exactly when it belongs to the dialect, and the compiled pattern matches exactly
the texts of the language that the source denotes.
-/

namespace Reckoner
namespace Pattern

open Dialect

theorem compile_eq_ok_iff {source : String} {pattern : Pattern} :
    compile source = .ok pattern ↔
      ∃ regex, Regex.read source = .ok regex ∧ pattern = ⟨source, .ofRegex regex⟩ := by
  unfold compile
  cases Regex.read source with
  | error fault => simp
  | ok regex => simp [eq_comm]

theorem isMatch_ofRegex_iff (source text : String) (regex : Option Regex) :
    isMatch ⟨source, .ofRegex regex⟩ text = true ↔ text.toList ∈ Regex.languageOfOption regex :=
  Automaton.accepts_ofRegex_iff regex text.toList

theorem compiles_iff (source : String) :
    (∃ pattern, compile source = .ok pattern) ↔ ∃ language, Denotes source.toList language := by
  constructor
  · rintro ⟨pattern, compiled⟩
    obtain ⟨regex, reads, _⟩ := compile_eq_ok_iff.1 compiled
    exact ⟨_, Regex.denotes_of_read reads⟩
  · rintro ⟨language, denotes⟩
    obtain ⟨regex, reads, _⟩ := Regex.read_of_denotes denotes
    exact ⟨_, compile_eq_ok_iff.2 ⟨regex, reads, rfl⟩⟩

theorem denotes_iff_compile (source : String) (language : Language Char) :
    Denotes source.toList language ↔
      ∃ pattern, compile source = .ok pattern ∧
        ∀ text : String, pattern.isMatch text = true ↔ text.toList ∈ language := by
  constructor
  · intro denotes
    obtain ⟨regex, reads, rfl⟩ := Regex.read_of_denotes denotes
    exact ⟨_, compile_eq_ok_iff.2 ⟨regex, reads, rfl⟩,
      fun text => isMatch_ofRegex_iff source text regex⟩
  · rintro ⟨pattern, compiled, accepts⟩
    obtain ⟨regex, reads, rfl⟩ := compile_eq_ok_iff.1 compiled
    have same : Regex.languageOfOption regex = language := by
      ext text
      have agrees := accepts (String.ofList text)
      rw [isMatch_ofRegex_iff, String.toList_ofList] at agrees
      exact agrees
    rw [← same]
    exact Regex.denotes_of_read reads

/-- A source denotes one language at most. -/
theorem language_eq_of_denotes
    {source : List Char}
    {first second : Language Char}
    (denotesFirst : Denotes source first)
    (denotesSecond : Denotes source second) :
    first = second := by
  rw [← String.toList_ofList (l := source)] at denotesFirst denotesSecond
  obtain ⟨regex, reads, rfl⟩ := Regex.read_of_denotes denotesFirst
  obtain ⟨other, otherReads, rfl⟩ := Regex.read_of_denotes denotesSecond
  rw [reads] at otherReads
  rw [Except.ok.inj otherReads]

/-- A source compiles exactly when it belongs to the dialect.  It denotes a language exactly when it
compiles to a pattern that matches the texts of that language and no others. -/
theorem compile_iff_denotes (source : String) :
    ((∃ pattern, compile source = .ok pattern) ↔ ∃ language, Denotes source.toList language) ∧
      ∀ language, Denotes source.toList language ↔
        ∃ pattern, compile source = .ok pattern ∧
          ∀ text : String, pattern.isMatch text = true ↔ text.toList ∈ language :=
  ⟨compiles_iff source, denotes_iff_compile source⟩

end Pattern
end Reckoner
