import Reckoner.Proofs.Expr.Vocabulary

/-!
# Learning and forgetting

A grammar may be anything that lists names: it may repeat them, and share them between its name
spaces.  A new tokenizer that learns it holds the shapes and the words of the grammar and nothing
else, and when it forgets the grammar again it is as it was before.
-/

namespace Reckoner
namespace Tokenizer

/-! ## Learning -/

theorem registers_iff
    {entry : String × TokenKind}
    {pattern : Pattern}
    (compiled : Pattern.compile entry.1 = .ok pattern)
    {registration : Registration TokenKind} :
    Registers entry registration ↔ registration = ⟨entry.2, pattern⟩ := by
  constructor
  · rintro ⟨id, compiles⟩
    obtain rfl : pattern = registration.pattern := Except.ok.inj (compiled.symm.trans compiles)
    exact id ▸ rfl
  · rintro rfl
    exact ⟨rfl, compiled⟩

/-- A source that compiles takes the place of its earlier entry. -/
theorem mem_learn_iff
    {tokenizer : Tokenizer}
    {entry : String × TokenKind}
    {pattern : Pattern}
    (compiled : Pattern.compile entry.1 = .ok pattern)
    {registration : Registration TokenKind} :
    registration ∈ (tokenizer.learn entry.1 entry.2).lexer.registrations ↔
      (registration ∈ tokenizer.lexer.registrations ∧
        Lexer.isEntry entry.1 entry.2 registration = false) ∨
      Registers entry registration := by
  rw [registers_iff compiled]
  simp [learn, Lexer.register, compiled, Lexer.unregister]

/-- Sources that compile are registered once each, whatever has been registered before. -/
theorem mem_foldl_learn_iff
    {tokenizer : Tokenizer}
    {entries : List (String × TokenKind)}
    (compiles : ∀ entry ∈ entries, ∃ pattern, Pattern.compile entry.1 = .ok pattern)
    {registration : Registration TokenKind} :
    registration ∈ (entries.foldl (fun result entry => result.learn entry.1 entry.2)
        tokenizer).lexer.registrations ↔
      (registration ∈ tokenizer.lexer.registrations ∧
        ∀ entry ∈ entries, Lexer.isEntry entry.1 entry.2 registration = false) ∨
      ∃ entry ∈ entries, Registers entry registration := by
  induction entries generalizing tokenizer with
  | nil => simp
  | cons first rest hypothesis =>
      obtain ⟨pattern, compiled⟩ := compiles first List.mem_cons_self
      rw [List.foldl_cons, hypothesis fun entry member =>
        compiles entry (List.mem_cons_of_mem first member), mem_learn_iff compiled]
      simp only [List.mem_cons, forall_eq_or_imp, exists_eq_or_imp]
      constructor
      · rintro (⟨⟨member, other⟩ | registers, others⟩ | later)
        · exact Or.inl ⟨member, other, others⟩
        · exact Or.inr (Or.inl registers)
        · exact Or.inr (Or.inr later)
      · rintro (⟨member, other, others⟩ | registers | later)
        · exact Or.inl ⟨Or.inl ⟨member, other⟩, others⟩
        · by_cases again : first ∈ rest
          · exact Or.inr ⟨first, again, registers⟩
          · refine Or.inl ⟨Or.inr registers, fun entry member => ?_⟩
            rw [Bool.eq_false_iff, ne_eq, registers.isEntry_iff]
            rintro rfl
            exact again member
        · exact Or.inr later

theorem load_eq (tokenizer : Tokenizer) (grammar : Grammar) :
    tokenizer.load grammar = (words grammar).foldl
      (fun result entry => result.learn entry.1 entry.2) tokenizer := by
  rw [words, List.foldl_map]
  rfl

theorem load_base (grammar : Grammar) :
    base.load grammar = (sources grammar).foldl
      (fun result entry => result.learn entry.1 entry.2) ⟨.empty⟩ := by
  rw [load_eq, sources, List.foldl_append]
  rfl

theorem exists_compile_of_mem_sources
    {grammar : Grammar}
    {entry : String × TokenKind}
    (member : entry ∈ sources grammar) :
    ∃ pattern, Pattern.compile entry.1 = .ok pattern := by
  obtain ⟨language, denotes, _⟩ := denotes_of_mem_sources member
  exact (Pattern.compiles_iff entry.1).2 ⟨language, denotes⟩

/-- A new tokenizer that has learnt a grammar knows the sources of the grammar and no others. -/
theorem mem_load_iff {grammar : Grammar} {registration : Registration TokenKind} :
    registration ∈ (base.load grammar).lexer.registrations ↔
      ∃ entry ∈ sources grammar, Registers entry registration := by
  rw [load_base, mem_foldl_learn_iff fun _ => exists_compile_of_mem_sources]
  simp [Lexer.empty]

/-- The patterns that it knows under a kind match the texts that become tokens of this kind. -/
theorem exists_mem_load_iff {grammar : Grammar} {kind : TokenKind} {text : List Char} :
    (∃ registration ∈ (base.load grammar).lexer.registrations, registration.id = kind ∧
        registration.pattern.isMatch (String.ofList text) = true) ↔
      text ∈ languageOf grammar kind := by
  constructor
  · rintro ⟨registration, member, rfl, accepting⟩
    obtain ⟨entry, source, registers⟩ := mem_load_iff.1 member
    obtain ⟨language, denotes, contained⟩ := denotes_of_mem_sources source
    exact registers.1 ▸ contained ((registers.isMatch_iff denotes text).1 accepting)
  · intro recognized
    obtain ⟨source, language, member, denotes, inside⟩ := exists_source_of_mem_languageOf recognized
    obtain ⟨pattern, compiled⟩ := exists_compile_of_mem_sources member
    have registers : Registers (source, kind) ⟨kind, pattern⟩ := ⟨rfl, compiled⟩
    exact ⟨_, mem_load_iff.2 ⟨_, member, registers⟩, rfl,
      (registers.isMatch_iff denotes text).2 inside⟩

/-! ## Forgetting -/

/-- Learning a source is not seen by those who leave its entries out. -/
theorem filter_learn
    {entry : String × TokenKind}
    {keep : Registration TokenKind → Bool}
    (drops : ∀ registration, Lexer.isEntry entry.1 entry.2 registration = true →
      keep registration = false)
    (tokenizer : Tokenizer) :
    (tokenizer.learn entry.1 entry.2).lexer.registrations.filter keep =
      tokenizer.lexer.registrations.filter keep := by
  have dropped (registration : Registration TokenKind) :
      (keep registration && !Lexer.isEntry entry.1 entry.2 registration) = keep registration := by
    cases known : Lexer.isEntry entry.1 entry.2 registration with
    | true => rw [drops registration known, Bool.false_and]
    | false => rw [Bool.not_false, Bool.and_true]
  unfold learn Lexer.register
  cases compiled : Pattern.compile entry.1 with
  | error fault => rfl
  | ok pattern =>
      have learnt : Lexer.isEntry entry.1 entry.2 ⟨entry.2, pattern⟩ = true := by
        simp [Lexer.isEntry, Pattern.source_of_compile compiled]
      simp only [Lexer.unregister, List.filter_append, List.filter_filter, dropped,
        List.filter_cons, drops _ learnt, Bool.false_eq_true, ↓reduceIte, List.filter_nil,
        List.append_nil]

theorem filter_foldl_learn
    {entries : List (String × TokenKind)}
    {keep : Registration TokenKind → Bool}
    (drops : ∀ entry ∈ entries, ∀ registration,
      Lexer.isEntry entry.1 entry.2 registration = true → keep registration = false)
    (tokenizer : Tokenizer) :
    (entries.foldl (fun result entry => result.learn entry.1 entry.2)
        tokenizer).lexer.registrations.filter keep =
      tokenizer.lexer.registrations.filter keep := by
  induction entries generalizing tokenizer with
  | nil => rfl
  | cons first rest hypothesis =>
      rw [List.foldl_cons, hypothesis fun entry member =>
        drops entry (List.mem_cons_of_mem first member)]
      exact filter_learn (drops first List.mem_cons_self) tokenizer

/-- Whether a registration is left in place by forgetting a grammar. -/
def outlasts (grammar : Grammar) (registration : Registration TokenKind) : Bool :=
  (entriesOf grammar).all fun entry =>
    !Lexer.isEntry (Pattern.literal entry.1) entry.2 registration

theorem registrations_unload (tokenizer : Tokenizer) (grammar : Grammar) :
    (tokenizer.unload grammar).lexer.registrations =
      tokenizer.lexer.registrations.filter (outlasts grammar) := by
  unfold unload outlasts
  induction entriesOf grammar generalizing tokenizer with
  | nil => simp
  | cons first rest hypothesis =>
      rw [List.foldl_cons, hypothesis, forget, Lexer.unregister, List.filter_filter]
      simp only [List.all_cons, Bool.and_comm]

/-- No word of a grammar is left in place. -/
theorem outlasts_eq_false
    {grammar : Grammar}
    {entry : String × TokenKind}
    {registration : Registration TokenKind}
    (isWord : entry ∈ words grammar)
    (known : Lexer.isEntry entry.1 entry.2 registration = true) :
    outlasts grammar registration = false := by
  obtain ⟨symbol, name, named, _, rfl⟩ := mem_words_iff.1 isWord
  rw [outlasts, List.all_eq_false]
  exact ⟨(name, .ofSymbol symbol), mem_entriesOf_iff.2 ⟨symbol, rfl, named⟩, by simp [known]⟩

/-- What is registered under a kind that is not one of names is left in place. -/
theorem outlasts_eq_true
    {registration : Registration TokenKind}
    (nameless : ∀ symbol, registration.id ≠ .ofSymbol symbol)
    (grammar : Grammar) :
    outlasts grammar registration = true := by
  rw [outlasts, List.all_eq_true]
  rintro ⟨name, kind⟩ member
  obtain ⟨symbol, rfl, _⟩ := mem_entriesOf_iff.1 member
  simp [Lexer.isEntry, nameless symbol]

/-- A tokenizer that knows no names forgets all that it has learnt from a grammar. -/
theorem unload_load
    {tokenizer : Tokenizer}
    (nameless : ∀ registration ∈ tokenizer.lexer.registrations, ∀ symbol,
      registration.id ≠ .ofSymbol symbol)
    (grammar : Grammar) :
    (tokenizer.load grammar).unload grammar = tokenizer := by
  have kept : ((tokenizer.load grammar).unload grammar).lexer.registrations =
      tokenizer.lexer.registrations := by
    rw [registrations_unload, load_eq,
      filter_foldl_learn fun entry isWord registration => outlasts_eq_false isWord,
      List.filter_eq_self]
    exact fun registration member => outlasts_eq_true (nameless registration member) grammar
  exact congrArg (fun registrations => (⟨⟨registrations⟩⟩ : Tokenizer)) kept

/-- The shapes are no names. -/
theorem nameless_base :
    ∀ registration ∈ base.lexer.registrations, ∀ symbol, registration.id ≠ .ofSymbol symbol := by
  intro registration member symbol
  obtain ⟨entry, shape, registers⟩ := mem_load_iff.1
    (show registration ∈ (base.load Grammar.empty).lexer.registrations from member)
  have isShape : entry ∈ basePatterns := by
    simpa [sources, words, entriesOf, Grammar.empty] using shape
  have unlike :
      ∀ shape ∈ basePatterns, ∀ symbol ∈ Symbol.all, shape.2 ≠ TokenKind.ofSymbol symbol := by
    decide
  rw [registers.1]
  exact unlike entry isShape symbol symbol.mem_all

end Tokenizer
end Reckoner
