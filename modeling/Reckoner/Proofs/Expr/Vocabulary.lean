import Reckoner.Proofs.Expr.Shapes

/-!
# The words of a grammar

A tokenizer that learns a grammar registers the names of the grammar behind the shapes that it
knows from the start, each name as a pattern that matches this name alone.  What it takes off the
front of a text is then the longest lexeme that is a word or has a shape.  If a lexeme is both,
or a word of several name spaces, then it has the kind that stands highest: functions above
numbers, numbers above operators, operators above variables, and names with unreduced operands
above their namesakes.
-/

open scoped Computability

namespace Reckoner

theorem Symbol.mem_all (symbol : Symbol) : symbol ∈ all := by
  rcases symbol with (_ | _) | (_ | _) <;> decide

namespace TokenKind

theorem ofSymbol_injective : Function.Injective ofSymbol := by
  intro first second same
  cases first <;> cases second <;> simp_all [ofSymbol]

/-- How high a kind stands among all kinds. -/
def standing (kind : TokenKind) : Nat :=
  all.idxOf kind

theorem standing_injective : Function.Injective standing := by
  intro first second same
  rcases first with _ | _ | _ | _ | _ | (_ | _) | _ | (_ | _) | _ | _ <;>
    rcases second with _ | _ | _ | _ | _ | (_ | _) | _ | (_ | _) | _ | _ <;>
    first | rfl | exact absurd same (by decide)

/-- A kind of a higher priority stands higher. -/
theorem standing_lt_of_priority_lt
    {first second : TokenKind}
    (lower : first.priority < second.priority) :
    first.standing < second.standing := by
  revert lower
  rcases first with _ | _ | _ | _ | _ | (_ | _) | _ | (_ | _) | _ | _ <;>
    rcases second with _ | _ | _ | _ | _ | (_ | _) | _ | (_ | _) | _ | _ <;>
    decide

end TokenKind

namespace Tokenizer

/-! ## Learning -/

/-- A registration of a source under a kind. -/
def Registers (entry : String × TokenKind) (registration : Registration TokenKind) : Prop :=
  registration.id = entry.2 ∧ Pattern.compile entry.1 = .ok registration.pattern

theorem Registers.isEntry_iff
    {entry : String × TokenKind}
    {registration : Registration TokenKind}
    (registers : Registers entry registration)
    (source : String)
    (kind : TokenKind) :
    Lexer.isEntry source kind registration = true ↔ entry = (source, kind) := by
  rw [Lexer.isEntry, Bool.and_eq_true, beq_iff_eq, beq_iff_eq,
    Pattern.source_of_compile registers.2, registers.1, Prod.ext_iff]

theorem Registers.isMatch_iff
    {entry : String × TokenKind}
    {registration : Registration TokenKind}
    {language : Language Char}
    (registers : Registers entry registration)
    (denotes : Dialect.Denotes entry.1.toList language)
    (text : List Char) :
    registration.pattern.isMatch (String.ofList text) = true ↔ text ∈ language := by
  obtain ⟨pattern, compiled, accepts⟩ := (Pattern.denotes_iff_compile _ _).1 denotes
  obtain rfl := Except.ok.inj (registers.2.symm.trans compiled)
  rw [accepts, String.toList_ofList]

/-- A new source that compiles is registered behind the others. -/
theorem learn_of_compile
    {tokenizer : Tokenizer}
    {source : String}
    {kind : TokenKind}
    {pattern : Pattern}
    (compiled : Pattern.compile source = .ok pattern)
    (fresh : tokenizer.lexer.contains source kind = false) :
    tokenizer.learn source kind = ⟨⟨tokenizer.lexer.registrations ++ [⟨kind, pattern⟩]⟩⟩ := by
  have kept : tokenizer.lexer.registrations.filter
      (fun registration => !Lexer.isEntry source kind registration) =
        tokenizer.lexer.registrations := by
    rw [List.filter_eq_self]
    simpa [Lexer.contains] using fresh
  simp only [learn, Lexer.register, compiled, Lexer.unregister, kept]

/-- New sources that compile are registered in their order. -/
theorem registrations_foldl_learn
    {tokenizer : Tokenizer}
    {entries : List (String × TokenKind)}
    (distinct : entries.Nodup)
    (fresh : ∀ entry ∈ entries, tokenizer.lexer.contains entry.1 entry.2 = false)
    (compiles : ∀ entry ∈ entries, ∃ pattern, Pattern.compile entry.1 = .ok pattern) :
    ∃ learnt, List.Forall₂ Registers entries learnt ∧
      (entries.foldl (fun result entry => result.learn entry.1 entry.2)
        tokenizer).lexer.registrations = tokenizer.lexer.registrations ++ learnt := by
  induction entries generalizing tokenizer with
  | nil => exact ⟨[], .nil, (List.append_nil _).symm⟩
  | cons entry rest hypothesis =>
      obtain ⟨different, distinctRest⟩ := List.nodup_cons.1 distinct
      obtain ⟨pattern, compiled⟩ := compiles entry List.mem_cons_self
      have learnt := learn_of_compile compiled (fresh entry List.mem_cons_self)
      have registers : Registers entry ⟨entry.2, pattern⟩ := ⟨rfl, compiled⟩
      have freshRest : ∀ other ∈ rest,
          (tokenizer.learn entry.1 entry.2).lexer.contains other.1 other.2 = false := by
        intro other member
        have earlier := fresh other (List.mem_cons_of_mem entry member)
        rw [learnt, Lexer.contains, List.any_append, ← Lexer.contains, earlier, Bool.false_or,
          List.any_cons, List.any_nil, Bool.or_false, Bool.eq_false_iff, ne_eq,
          registers.isEntry_iff]
        rintro rfl
        exact different member
      obtain ⟨others, registersRest, same⟩ := hypothesis distinctRest freshRest
        fun other member => compiles other (List.mem_cons_of_mem entry member)
      refine ⟨⟨entry.2, pattern⟩ :: others, .cons registers registersRest, ?_⟩
      rw [List.foldl_cons, same, learnt, List.append_assoc, List.singleton_append]

/-! ## Loading a grammar -/

/-- The sources and kinds of the words of a grammar. -/
def words (grammar : Grammar) : List (String × TokenKind) :=
  ((entriesOf grammar).filter (fun entry => !entry.1.isEmpty)).map fun entry =>
    (Pattern.literal entry.1, entry.2)

/-- The sources and kinds that a tokenizer knows which has learnt a grammar. -/
def sources (grammar : Grammar) : List (String × TokenKind) :=
  basePatterns ++ words grammar

/-- The entries are the names of every symbol, with its kind. -/
theorem mem_entriesOf_iff {grammar : Grammar} {name : String} {kind : TokenKind} :
    (name, kind) ∈ entriesOf grammar ↔
      ∃ symbol, kind = .ofSymbol symbol ∧ name ∈ grammar.names symbol := by
  simp only [entriesOf, List.mem_flatMap, List.mem_map, Prod.mk.injEq, Symbol.mem_all, true_and]
  constructor
  · rintro ⟨symbol, _, member, rfl, rfl⟩
    exact ⟨symbol, rfl, member⟩
  · rintro ⟨symbol, rfl, member⟩
    exact ⟨symbol, name, member, rfl, rfl⟩

theorem mem_words_iff {grammar : Grammar} {entry : String × TokenKind} :
    entry ∈ words grammar ↔
      ∃ symbol name, name ∈ grammar.names symbol ∧ name ≠ "" ∧
        entry = (Pattern.literal name, .ofSymbol symbol) := by
  simp only [words, List.mem_map, List.mem_filter]
  constructor
  · rintro ⟨⟨name, kind⟩, ⟨member, nonempty⟩, rfl⟩
    obtain ⟨symbol, rfl, named⟩ := mem_entriesOf_iff.1 member
    exact ⟨symbol, name, named, by simpa using nonempty, rfl⟩
  · rintro ⟨symbol, name, member, nonempty, rfl⟩
    exact ⟨(name, .ofSymbol symbol), ⟨mem_entriesOf_iff.2 ⟨symbol, rfl, member⟩,
      by simpa using nonempty⟩, rfl⟩

/-- Names that differ make entries that differ. -/
theorem nodup_entriesOf
    {grammar : Grammar}
    (distinct : ∀ symbol, (grammar.names symbol).Nodup) :
    (entriesOf grammar).Nodup := by
  rw [entriesOf, List.nodup_flatMap]
  constructor
  · intro symbol _
    exact (distinct symbol).map fun _ _ same => (Prod.mk.inj same).1
  · have different : Symbol.all.Pairwise (· ≠ ·) := by decide
    refine different.imp fun {first second} unlike => ?_
    intro entry inFirst inSecond
    obtain ⟨_, _, rfl⟩ := List.mem_map.1 inFirst
    obtain ⟨_, _, same⟩ := List.mem_map.1 inSecond
    exact unlike (TokenKind.ofSymbol_injective (Prod.mk.inj same).2.symm)

theorem nodup_sources
    {grammar : Grammar}
    (distinct : ∀ symbol, (grammar.names symbol).Nodup) :
    (sources grammar).Nodup := by
  refine List.nodup_append.2 ⟨by decide, ?_, ?_⟩
  · refine ((nodup_entriesOf distinct).filter _).map ?_
    rintro ⟨name, kind⟩ ⟨other, otherKind⟩ same
    obtain ⟨sameSource, rfl⟩ := Prod.mk.inj same
    obtain rfl : name = other := Pattern.literal_injective sameSource
    rfl
  · rintro ⟨source, kind⟩ base entry word rfl
    obtain ⟨symbol, name, _, _, same⟩ := mem_words_iff.1 word
    obtain ⟨_, rfl⟩ := Prod.mk.inj same
    simp only [basePatterns, List.mem_cons, List.not_mem_nil, or_false, Prod.mk.injEq] at base
    cases symbol <;> simp [TokenKind.ofSymbol] at base

/-- The texts that become tokens of a kind. -/
def languageOf (grammar : Grammar) (kind : TokenKind) : Language Char :=
  { text | text ∈ shapeOf kind ∨
    text ≠ [] ∧ ∃ symbol, kind = .ofSymbol symbol ∧ String.ofList text ∈ grammar.names symbol }

/-- A kind has the texts of its shape and the names of its symbol. -/
theorem mem_languageOf_iff {grammar : Grammar} {kind : TokenKind} {text : List Char} :
    text ∈ languageOf grammar kind ↔
      text ∈ shapeOf kind ∨
        text ≠ [] ∧ ∃ symbol, kind = .ofSymbol symbol ∧
          String.ofList text ∈ grammar.names symbol :=
  Iff.rfl

theorem mem_languageOf_ofSymbol_iff {grammar : Grammar} {symbol : Symbol} {text : List Char} :
    text ∈ languageOf grammar (.ofSymbol symbol) ↔
      text ≠ [] ∧ String.ofList text ∈ grammar.names symbol := by
  have shapeless : shapeOf (.ofSymbol symbol) = 0 := by cases symbol <;> rfl
  rw [mem_languageOf_iff, shapeless]
  constructor
  · rintro (absent | ⟨nonempty, other, same, named⟩)
    · exact absurd absent (Language.notMem_zero text)
    · obtain rfl := TokenKind.ofSymbol_injective same
      exact ⟨nonempty, named⟩
  · rintro ⟨nonempty, named⟩
    exact Or.inr ⟨nonempty, symbol, rfl, named⟩

/-- Every source denotes texts of its kind. -/
theorem denotes_of_mem_sources
    {grammar : Grammar}
    {entry : String × TokenKind}
    (member : entry ∈ sources grammar) :
    ∃ language, Dialect.Denotes entry.1.toList language ∧
      language ≤ languageOf grammar entry.2 := by
  rcases List.mem_append.1 member with base | word
  · exact ⟨_, denotes_of_mem_basePatterns base, fun _ shaped => Or.inl shaped⟩
  · obtain ⟨symbol, name, named, nonempty, rfl⟩ := mem_words_iff.1 word
    refine ⟨_, Pattern.denotes_literal name, ?_⟩
    rintro _ rfl
    refine mem_languageOf_ofSymbol_iff.2 ⟨?_, ?_⟩
    · simpa using nonempty
    · rwa [String.ofList_toList]

/-- Every text of a kind is denoted by one of its sources. -/
theorem exists_source_of_mem_languageOf
    {grammar : Grammar}
    {kind : TokenKind}
    {text : List Char}
    (recognized : text ∈ languageOf grammar kind) :
    ∃ source language, (source, kind) ∈ sources grammar ∧
      Dialect.Denotes source.toList language ∧ text ∈ language := by
  rcases mem_languageOf_iff.1 recognized with shaped | ⟨nonempty, symbol, rfl, named⟩
  · obtain ⟨source, base⟩ := exists_mem_basePatterns shaped
    exact ⟨source, _, List.mem_append_left _ base, denotes_of_mem_basePatterns base, shaped⟩
  · refine ⟨_, _, List.mem_append_right _ (mem_words_iff.2 ⟨symbol, _, named, ?_, rfl⟩),
      Pattern.denotes_literal _, ?_⟩
    · simpa using nonempty
    · rw [String.toList_ofList]
      rfl

/-- A tokenizer that has learnt a grammar holds its shapes and the words of the grammar, in
order. -/
theorem registers_load
    {grammar : Grammar}
    (distinct : ∀ symbol, (grammar.names symbol).Nodup) :
    List.Forall₂ Registers (sources grammar) (base.load grammar).lexer.registrations := by
  have all : base.load grammar = (sources grammar).foldl
      (fun result entry => result.learn entry.1 entry.2) ⟨.empty⟩ := by
    rw [sources, List.foldl_append, words, List.foldl_map]
    rfl
  have compiles : ∀ entry ∈ sources grammar,
      ∃ pattern, Pattern.compile entry.1 = .ok pattern := by
    intro entry member
    obtain ⟨language, denotes, _⟩ := denotes_of_mem_sources member
    exact (Pattern.compiles_iff entry.1).2 ⟨language, denotes⟩
  have fresh : ∀ entry ∈ sources grammar,
      (⟨.empty⟩ : Tokenizer).lexer.contains entry.1 entry.2 = false := fun _ _ => rfl
  obtain ⟨learnt, registers, same⟩ :=
    registrations_foldl_learn (nodup_sources distinct) fresh compiles
  rw [all, same]
  exact registers

/-- Sources of one priority are registered in the order of their standing. -/
theorem pairwise_sources (grammar : Grammar) :
    (sources grammar).Pairwise fun first second =>
      first.2.priority = second.2.priority → first.2.standing ≤ second.2.standing := by
  have pairwise : (entriesOf grammar).Pairwise fun first second =>
      first.2.priority = second.2.priority → first.2.standing ≤ second.2.standing := by
    rw [entriesOf, List.pairwise_flatMap]
    constructor
    · intro symbol _
      rw [List.pairwise_map]
      exact List.pairwise_of_forall fun _ _ _ => Nat.le_refl _
    · have ordered : Symbol.all.Pairwise fun first second =>
          (TokenKind.ofSymbol first).priority = (TokenKind.ofSymbol second).priority →
            (TokenKind.ofSymbol first).standing ≤ (TokenKind.ofSymbol second).standing := by
        decide
      refine ordered.imp fun {first second} below => ?_
      intro entry inFirst other inSecond
      obtain ⟨_, _, rfl⟩ := List.mem_map.1 inFirst
      obtain ⟨_, _, rfl⟩ := List.mem_map.1 inSecond
      exact below
  refine List.pairwise_append.2 ⟨by decide, ?_, ?_⟩
  · rw [words, List.pairwise_map]
    exact pairwise.filter _
  · intro entry shape word isWord
    obtain ⟨symbol, _, _, _, rfl⟩ := mem_words_iff.1 isWord
    have unlike : ∀ shape ∈ basePatterns, ∀ symbol ∈ Symbol.all,
        shape.2.priority ≠ (TokenKind.ofSymbol symbol).priority := by
      decide
    exact fun same => absurd same (unlike entry shape symbol symbol.mem_all)

/-! ## What is recognized -/

/-- The source that is registered in a slot. -/
theorem exists_source_of_registration
    {grammar : Grammar}
    (distinct : ∀ symbol, (grammar.names symbol).Nodup)
    {slot : Nat}
    {registration : Registration TokenKind}
    (found : (base.load grammar).lexer.registrations[slot]? = some registration) :
    ∃ entry, (sources grammar)[slot]? = some entry ∧ Registers entry registration := by
  obtain ⟨sameLength, registers⟩ := List.forall₂_iff_get.1 (registers_load distinct)
  obtain ⟨inside, rfl⟩ := List.getElem?_eq_some_iff.1 found
  exact ⟨_, List.getElem?_eq_getElem (sameLength ▸ inside),
    registers slot (sameLength ▸ inside) inside⟩

/-- The registration of a source, which is in the same place. -/
theorem exists_registration_of_source
    {grammar : Grammar}
    (distinct : ∀ symbol, (grammar.names symbol).Nodup)
    {slot : Nat}
    {entry : String × TokenKind}
    (present : (sources grammar)[slot]? = some entry) :
    ∃ registration, (base.load grammar).lexer.registrations[slot]? = some registration ∧
      Registers entry registration := by
  obtain ⟨sameLength, registers⟩ := List.forall₂_iff_get.1 (registers_load distinct)
  obtain ⟨inside, rfl⟩ := List.getElem?_eq_some_iff.1 present
  exact ⟨_, List.getElem?_eq_getElem (sameLength ▸ inside),
    registers slot inside (sameLength ▸ inside)⟩

/-- The candidates at the front of characters are the pieces that have a kind. -/
theorem exists_isCandidate_load_iff
    {grammar : Grammar}
    (distinct : ∀ symbol, (grammar.names symbol).Nodup)
    {characters : List Char}
    {length : Nat}
    {kind : TokenKind} :
    (∃ slot, (base.load grammar).lexer.IsCandidate characters ⟨length, kind, slot⟩) ↔
      length ≤ characters.length ∧ characters.take length ∈ languageOf grammar kind := by
  constructor
  · rintro ⟨slot, registration, found, rfl, within, accepting⟩
    obtain ⟨entry, present, registers⟩ := exists_source_of_registration distinct found
    obtain ⟨language, denotes, contained⟩ := denotes_of_mem_sources (List.mem_of_getElem? present)
    refine ⟨within, registers.1 ▸ contained ?_⟩
    exact (registers.isMatch_iff denotes _).1 accepting
  · rintro ⟨within, recognized⟩
    obtain ⟨source, language, member, denotes, inside⟩ := exists_source_of_mem_languageOf recognized
    obtain ⟨slot, present⟩ := List.mem_iff_getElem?.1 member
    obtain ⟨registration, found, registers⟩ := exists_registration_of_source distinct present
    exact ⟨slot, registration, found, registers.1, within,
      (registers.isMatch_iff denotes _).2 inside⟩

/-- A candidate that ranks no higher than another one of its length does not stand higher. -/
theorem standing_le_of_rank_isLE
    {grammar : Grammar}
    (distinct : ∀ symbol, (grammar.names symbol).Nodup)
    {characters : List Char}
    {length slot otherSlot : Nat}
    {kind other : TokenKind}
    (isCandidate : (base.load grammar).lexer.IsCandidate characters ⟨length, kind, slot⟩)
    (isOther : (base.load grammar).lexer.IsCandidate characters ⟨length, other, otherSlot⟩)
    (below : (Lexer.Candidate.rank TokenKind.byPriority ⟨length, other, otherSlot⟩
      ⟨length, kind, slot⟩).isLE = true) :
    other.standing ≤ kind.standing := by
  obtain ⟨_, found, rfl, _⟩ := isCandidate
  obtain ⟨_, otherFound, rfl, _⟩ := isOther
  obtain ⟨entry, present, registers⟩ := exists_source_of_registration distinct found
  obtain ⟨otherEntry, otherPresent, otherRegisters⟩ :=
    exists_source_of_registration distinct otherFound
  rw [registers.1, otherRegisters.1] at below ⊢
  obtain ⟨inside, rfl⟩ := List.getElem?_eq_some_iff.1 present
  obtain ⟨otherInside, rfl⟩ := List.getElem?_eq_some_iff.1 otherPresent
  rw [Lexer.Candidate.rank, Nat.compare_eq_eq.2 rfl, Ordering.eq_then] at below
  rcases Int.lt_trichotomy (sources grammar)[otherSlot].2.priority
    (sources grammar)[slot].2.priority
    with lower | same | higher
  · exact Nat.le_of_lt (TokenKind.standing_lt_of_priority_lt lower)
  · have earlier : otherSlot ≤ slot := by
      rw [TokenKind.byPriority, same, compare_eq_iff_eq.2 rfl, Ordering.eq_then] at below
      exact Nat.isLE_compare.1 below
    rcases Nat.lt_or_eq_of_le earlier with before | rfl
    · exact List.pairwise_iff_getElem.1 (pairwise_sources grammar) _ _ _ _ before same
    · exact Nat.le_refl _
  · rw [TokenKind.byPriority, Std.compare_eq_gt.2 higher] at below
    cases below

/-- The best match at the front of characters is a piece that has its kind, is longest, and stands
highest among its kinds. -/
theorem recognized_of_takes
    {grammar : Grammar}
    (distinct : ∀ symbol, (grammar.names symbol).Nodup)
    {characters lexeme : List Char}
    {kind : TokenKind}
    (takes : (base.load grammar).lexer.Takes TokenKind.byPriority characters lexeme kind) :
    lexeme <+: characters ∧ lexeme ∈ languageOf grammar kind ∧
      (∀ longer other, longer <+: characters → longer ∈ languageOf grammar other →
        longer.length ≤ lexeme.length) ∧
      ∀ other, lexeme ∈ languageOf grammar other → other.standing ≤ kind.standing := by
  obtain ⟨slot, leads, isCandidate, above⟩ := takes
  have candidates {piece : List Char} {other : TokenKind} (starts : piece <+: characters)
      (recognized : piece ∈ languageOf grammar other) : ∃ otherSlot,
        (base.load grammar).lexer.IsCandidate characters ⟨piece.length, other, otherSlot⟩ := by
    refine (exists_isCandidate_load_iff distinct).2 ⟨starts.length_le, ?_⟩
    rwa [← List.prefix_iff_eq_take.1 starts]
  refine ⟨leads, ?_, ?_, ?_⟩
  · have recognized := ((exists_isCandidate_load_iff distinct).1 ⟨slot, isCandidate⟩).2
    rwa [← List.prefix_iff_eq_take.1 leads] at recognized
  · intro longer other starts recognized
    obtain ⟨otherSlot, isOther⟩ := candidates starts recognized
    have below := above _ isOther
    by_contra more
    rw [Lexer.Candidate.rank, Nat.compare_eq_gt.2 (by simpa using more)] at below
    cases below
  · intro other recognized
    obtain ⟨otherSlot, isOther⟩ := candidates leads recognized
    exact standing_le_of_rank_isLE distinct isCandidate isOther (above _ isOther)

/-- A tokenizer that has learnt a grammar takes the longest lexeme that has a kind, and of its kinds
the one that stands highest. -/
theorem takes_load_iff
    {grammar : Grammar}
    (distinct : ∀ symbol, (grammar.names symbol).Nodup)
    {characters lexeme : List Char}
    {kind : TokenKind} :
    (base.load grammar).lexer.Takes TokenKind.byPriority characters lexeme kind ↔
      lexeme <+: characters ∧ lexeme ∈ languageOf grammar kind ∧
        (∀ longer other, longer <+: characters → longer ∈ languageOf grammar other →
          longer.length ≤ lexeme.length) ∧
        ∀ other, lexeme ∈ languageOf grammar other → other.standing ≤ kind.standing := by
  refine ⟨recognized_of_takes distinct, ?_⟩
  rintro ⟨leads, recognized, longest, highest⟩
  obtain ⟨slot, isCandidate⟩ := (exists_isCandidate_load_iff distinct).2
    ⟨leads.length_le, List.prefix_iff_eq_take.1 leads ▸ recognized⟩
  obtain ⟨found, foundKind, takes⟩ := isCandidate.exists_takes TokenKind.byPriority
  obtain ⟨foundLeads, foundRecognized, foundLongest, foundHighest⟩ :=
    recognized_of_takes distinct takes
  have sameLexeme : found = lexeme := by
    refine List.prefix_of_prefix_length_le foundLeads leads ?_ |>.eq_of_length ?_
    · exact longest _ _ foundLeads foundRecognized
    · exact Nat.le_antisymm (longest _ _ foundLeads foundRecognized)
        (foundLongest _ _ leads recognized)
  have sameKind : foundKind = kind := by
    refine TokenKind.standing_injective (Nat.le_antisymm ?_ ?_)
    · exact highest _ (sameLexeme ▸ foundRecognized)
    · exact foundHighest _ (sameLexeme ▸ recognized)
  rwa [sameLexeme, sameKind] at takes

end Tokenizer
end Reckoner
