import Reckoner.Expr.Reader
import Reckoner.Proofs.Expr.Learning
import Reckoner.Proofs.Expr.Spelling
import Reckoner.Proofs.Lexer.Walking

/-!
# Spaces between slices

When no name of a grammar contains a space, only the pattern for spaces matches a text with a space
in it, and of these a single space alone.  So no slice of a text reaches over a space, and no slice
gets longer by what stands behind a space: spaces may be put between the slices of a text at will.
-/

namespace Reckoner

/-- A grammar none of whose names contains a space. -/
def Grammar.Spaceless (grammar : Grammar) : Prop :=
  ∀ symbol, ∀ name ∈ grammar.names symbol, ' ' ∉ name.toList

instance (grammar : Grammar) : Decidable grammar.Spaceless :=
  decidable_of_iff
    (∀ symbol ∈ Symbol.all, ∀ name ∈ grammar.names symbol, ' ' ∉ name.toList)
    ⟨fun all symbol => all symbol symbol.mem_all, fun spaceless symbol _ => spaceless symbol⟩

namespace Tokenizer

variable {grammar : Grammar}

/-! ## Matches with spaces -/

/-- Only a single space has a space in it. -/
theorem eq_space_of_mem_languageOf
    (spaceless : grammar.Spaceless)
    {kind : TokenKind}
    {text : List Char}
    (recognized : text ∈ languageOf grammar kind)
    (space : ' ' ∈ text) :
    kind = .whitespace ∧ text = [' '] := by
  rcases mem_languageOf_iff.1 recognized with shaped | ⟨_, symbol, rfl, named⟩
  · cases kind with
    | whitespace => exact ⟨rfl, shaped⟩
    | number => exact absurd (isFigure_of_mem_number shaped ' ' space) (by decide)
    | «variable» =>
        exact absurd ((isWord_iff.1 (mem_variable_iff.1 shaped)).2 ' ' space) (by decide)
    | comma | openParen | closeParen =>
        obtain rfl := shaped
        exact absurd space (by decide)
    | functionEnd | any | operator _ | function _ =>
        exact absurd shaped (Language.notMem_zero text)
  · exact absurd (String.toList_ofList ▸ space) (spaceless symbol _ named)

/-- A slice with a space in it is that one space. -/
theorem length_of_isCandidate
    (spaceless : grammar.Spaceless)
    {characters : List Char}
    {candidate : Lexer.Candidate TokenKind}
    (isCandidate : (base.load grammar).lexer.IsCandidate characters candidate)
    (space : ' ' ∈ characters.take candidate.length) :
    candidate.length = 1 := by
  obtain ⟨registration, found, _, within, accepting⟩ := isCandidate
  have recognized := exists_mem_load_iff.1
    ⟨registration, List.mem_of_getElem? found, rfl, accepting⟩
  have single := congrArg List.length (eq_space_of_mem_languageOf spaceless recognized space).2
  rwa [List.length_take, Nat.min_eq_left within] at single

/-- A space is taken off the front, whatever stands behind it. -/
theorem takes_space
    (spaceless : grammar.Spaceless)
    (rest : List Char) :
    (base.load grammar).lexer.Takes TokenKind.byPriority (' ' :: rest) [' '] .whitespace := by
  obtain ⟨registration, member, _, accepting⟩ := exists_mem_load_iff.2
    (show [' '] ∈ languageOf grammar .whitespace from Or.inl rfl)
  have leads : [' '] <+: ' ' :: rest := List.prefix_append [' '] rest
  obtain ⟨slot, isCandidate⟩ :=
    (Lexer.exists_isCandidate_iff leads).2 ⟨registration, member, rfl, accepting⟩
  obtain ⟨lexeme, kind, takes⟩ := isCandidate.exists_takes TokenKind.byPriority
  have long : 1 ≤ lexeme.length := takes.length_le member leads accepting
  have space : ' ' ∈ lexeme := by
    obtain ⟨_, starts, _⟩ := takes
    cases lexeme with
    | nil => cases long
    | cons first others =>
        obtain rfl := (List.cons_prefix_cons.1 starts).1
        exact List.mem_cons_self
  obtain ⟨rfl, rfl⟩ :=
    eq_space_of_mem_languageOf spaceless (exists_mem_load_iff.1 takes.exists_registration) space
  exact takes

/-- A text without spaces that begins a lexeme and what stands behind it. -/
theorem prefix_append_of_kept
    {lexeme behind rest text : List Char}
    (leads : text <+: lexeme ++ behind)
    (free : ' ' ∉ text)
    (kept : ∀ text, text <+: behind → ' ' ∉ text → text <+: rest) :
    text <+: lexeme ++ rest := by
  rcases List.prefix_or_prefix_of_prefix leads (List.prefix_append lexeme behind) with
    inside | ⟨further, rfl⟩
  · exact inside.trans (List.prefix_append lexeme rest)
  · rw [List.prefix_append_right_inj] at leads ⊢
    exact kept further leads fun space => free (List.mem_append_right lexeme space)

/-- What stands behind a slice may be exchanged: the slice is still the one to take if without
spaces nothing begins the new text that did not begin the old one. -/
theorem takes_exchange
    (spaceless : grammar.Spaceless)
    {lexeme rest behind : List Char}
    {kind : TokenKind}
    (takes : (base.load grammar).lexer.Takes TokenKind.byPriority (lexeme ++ rest) lexeme kind)
    (nonempty : lexeme ≠ [])
    (kept : ∀ text, text <+: behind → ' ' ∉ text → text <+: rest) :
    (base.load grammar).lexer.Takes TokenKind.byPriority (lexeme ++ behind) lexeme kind := by
  refine takes.of_prefix (List.prefix_append lexeme behind) ?_
  intro candidate longer isCandidate
  have positive := List.length_pos_of_ne_nil nonempty
  have within : candidate.length ≤ (lexeme ++ behind).length := isCandidate.choose_spec.2.2.1
  have free : ' ' ∉ (lexeme ++ behind).take candidate.length := by
    intro space
    have single := length_of_isCandidate spaceless isCandidate space
    omega
  have leads := prefix_append_of_kept (List.take_prefix _ _) free kept
  have length : ((lexeme ++ behind).take candidate.length).length = candidate.length := by
    rw [List.length_take, Nat.min_eq_left within]
  refine isCandidate.of_take_eq (length ▸ leads.length_le) ?_
  rw [List.prefix_iff_eq_take.1 leads, length]

/-! ## Spaces put between slices -/

/-- Lexemes one behind the other with spaces in front of each and at the end; `gaps` says how many
spaces stand at each of these places. -/
def spread (gaps : Nat → Nat) : List (List Char) → List Char
  | [] => List.replicate (gaps 0) ' '
  | lexeme :: lexemes =>
      List.replicate (gaps 0) ' ' ++ (lexeme ++ spread (fun place => gaps (place + 1)) lexemes)

/-- The pieces of lexemes with spaces between them. -/
def spreadPieces (gaps : Nat → Nat) :
    List (List Char × TokenKind) → List (List Char × TokenKind)
  | [] => List.replicate (gaps 0) ([' '], .whitespace)
  | piece :: pieces =>
      List.replicate (gaps 0) ([' '], .whitespace) ++
        piece :: spreadPieces (fun place => gaps (place + 1)) pieces

theorem tokensOf_spaces (count : Nat) (pieces : List (List Char × TokenKind)) :
    tokensOf (List.replicate count ([' '], .whitespace) ++ pieces) = tokensOf pieces := by
  simp [tokensOf, List.filter_append]

theorem tokensOf_spreadPieces (gaps : Nat → Nat) (pieces : List (List Char × TokenKind)) :
    tokensOf (spreadPieces gaps pieces) = tokensOf pieces := by
  induction pieces generalizing gaps with
  | nil => simpa [spreadPieces] using tokensOf_spaces (gaps 0) []
  | cons piece pieces hypothesis =>
      have others := hypothesis fun place => gaps (place + 1)
      rw [spreadPieces, tokensOf_spaces]
      simp only [tokensOf, List.filter_cons] at others ⊢
      split <;> simp [others]

/-- A text without spaces that begins lexemes with spaces between them ends where the first of these
spaces stands. -/
theorem prefix_flatten_of_prefix_spread
    {gaps : Nat → Nat}
    {lexemes : List (List Char)}
    {text : List Char}
    (leads : text <+: spread gaps lexemes)
    (free : ' ' ∉ text) :
    text <+: lexemes.flatten := by
  induction lexemes generalizing gaps text with
  | nil =>
      cases text with
      | nil => exact List.nil_prefix
      | cons first others =>
          have spaces := List.eq_of_mem_replicate (leads.subset List.mem_cons_self)
          exact absurd (spaces ▸ List.mem_cons_self) free
  | cons lexeme lexemes hypothesis =>
      rw [spread] at leads
      cases count : gaps 0 with
      | zero =>
          rw [count, List.replicate_zero, List.nil_append] at leads
          exact prefix_append_of_kept leads free fun _ => hypothesis
      | succ more =>
          cases text with
          | nil => exact List.nil_prefix
          | cons first others =>
              rw [count, List.replicate_succ, List.cons_append, List.cons_prefix_cons] at leads
              exact absurd (leads.1 ▸ List.mem_cons_self) free

theorem cuts_spaces
    (spaceless : grammar.Spaceless)
    {characters : List Char}
    {pieces : List (List Char × TokenKind)}
    (cuts : (base.load grammar).lexer.Cuts TokenKind.byPriority characters pieces)
    (count : Nat) :
    (base.load grammar).lexer.Cuts TokenKind.byPriority (List.replicate count ' ' ++ characters)
      (List.replicate count ([' '], .whitespace) ++ pieces) := by
  induction count with
  | zero => exact cuts
  | succ count hypothesis =>
      exact .cons (takes_space spaceless _) (List.cons_ne_nil _ _) hypothesis

theorem map_fst_piece (slices : List (Match TokenKind)) :
    (slices.map Lexer.piece).map Prod.fst = slices.map Match.lexeme := by
  rw [List.map_map]
  rfl

/-- Slices with spaces between them are the slices that they were. -/
theorem cuts_spread
    (spaceless : grammar.Spaceless)
    {characters : List Char}
    {pieces : List (List Char × TokenKind)}
    (cuts : (base.load grammar).lexer.Cuts TokenKind.byPriority characters pieces)
    (gaps : Nat → Nat) :
    (base.load grammar).lexer.Cuts TokenKind.byPriority (spread gaps (pieces.map Prod.fst))
      (spreadPieces gaps pieces) := by
  induction cuts generalizing gaps with
  | nil => simpa [spread, spreadPieces] using cuts_spaces spaceless .nil (gaps 0)
  | @cons lexeme rest kind pieces takes nonempty others hypothesis =>
      have next := hypothesis fun place => gaps (place + 1)
      have stays : (base.load grammar).lexer.Takes TokenKind.byPriority
          (lexeme ++ spread (fun place => gaps (place + 1)) (pieces.map Prod.fst)) lexeme kind := by
        refine takes_exchange spaceless takes nonempty fun text leads free => ?_
        exact others.flatten_eq ▸ prefix_flatten_of_prefix_spread leads free
      exact cuts_spaces spaceless (.cons stays nonempty next) (gaps 0)

/-- Spaces at the start, at the end and between any slices of a text change neither its tokens nor
what it is read as. -/
theorem parse_spread
    (spaceless : grammar.Spaceless)
    {text : String}
    {tokens : List Token}
    (tokenizes : (base.load grammar).tokenize text = .ok tokens)
    (gaps : Nat → Nat) :
    ∃ slices, (base.load grammar).lexer.lexFrom TokenKind.byPriority 0 text.toList = some slices ∧
      (slices.map Match.lexeme).flatten = text.toList ∧
      ∀ spaced, spaced = String.ofList (spread gaps (slices.map Match.lexeme)) →
        (base.load grammar).tokenize spaced = .ok tokens ∧
          (Reader.base.load grammar).parse spaced = (Reader.base.load grammar).parse text := by
  obtain ⟨pieces, cuts, rfl⟩ := tokenize_eq_ok_iff.1 tokenizes
  obtain ⟨slices, cut, rfl⟩ : ∃ slices,
      (base.load grammar).lexer.lexFrom TokenKind.byPriority 0 text.toList = some slices ∧
        slices.map Lexer.piece = pieces := Lexer.lexFrom_eq_some_iff.2 cuts
  refine ⟨slices, cut, map_fst_piece slices ▸ cuts.flatten_eq, ?_⟩
  rintro spaced rfl
  have same : (base.load grammar).tokenize
      (String.ofList (spread gaps (slices.map Match.lexeme))) =
        .ok (tokensOf (slices.map Lexer.piece)) := by
    refine tokenize_eq_ok_iff.2 ⟨_, ?_, tokensOf_spreadPieces gaps _⟩
    rw [String.toList_ofList, ← map_fst_piece]
    exact cuts_spread spaceless cuts gaps
  refine ⟨same, ?_⟩
  have reads : (Reader.base.load grammar).tokenize
      (String.ofList (spread gaps (slices.map Match.lexeme))) =
        (Reader.base.load grammar).tokenize text := same.trans tokenizes.symm
  rw [Reader.parse, reads, Reader.parse]

/-- A grammar of sums and sines. -/
def sums : Grammar where
  names
    | .operator .value => ["+"]
    | .function .value => ["sin"]
    | _ => []
  spec? _ _ := none

theorem orderly_sums : sums.Orderly := by
  decide

theorem cuts_sums :
    (base.load sums).lexer.Cuts TokenKind.byPriority ['s', 'i', 'n', '+', 'x']
      [(['s', 'i', 'n'], .function .value), (['+'], .operator .value), (['x'], .variable)] := by
  have lexeme {token : Token} (known : isKnown sums token = true) :
      IsLexeme sums token.kind token.lexeme.toList :=
    (isToken_of_isKnown orderly_sums known).2
  have sine : IsLexeme sums (.function .value) ['s', 'i', 'n'] :=
    @lexeme ⟨.function .value, "sin"⟩ (by decide)
  have plus : IsLexeme sums (.operator .value) ['+'] := @lexeme ⟨.operator .value, "+"⟩ (by decide)
  have letter : IsLexeme sums .variable ['x'] := @lexeme ⟨.variable, "x"⟩ (by decide)
  have sineStops : Stops (.function .value) ['s', 'i', 'n'] ['+', 'x'] := by
    intro next leads
    obtain rfl := Option.some.inj leads
    decide
  have plusStops : Stops (.operator .value) ['+'] ['x'] := by
    intro next leads
    obtain rfl := Option.some.inj leads
    decide
  have letterStops : Stops .variable ['x'] [] := fun _ leads => by cases leads
  exact .cons (sine.takes orderly_sums sineStops) sine.nonempty
    (.cons (plus.takes orderly_sums plusStops) plus.nonempty
      (.cons (letter.takes orderly_sums letterStops) letter.nonempty .nil))

theorem parse_spread_sums :
    sums.Spaceless ∧
      (base.load sums).tokenize "sin+x" =
        .ok [⟨.function .value, "sin"⟩, ⟨.operator .value, "+"⟩, ⟨.variable, "x"⟩] ∧
      (base.load sums).tokenize "  sin   +x " =
        .ok [⟨.function .value, "sin"⟩, ⟨.operator .value, "+"⟩, ⟨.variable, "x"⟩] ∧
      (Reader.base.load sums).parse "  sin   +x " = (Reader.base.load sums).parse "sin+x" := by
  have spaceless : sums.Spaceless := by decide
  have tokenizes : (base.load sums).tokenize "sin+x" =
      .ok [⟨.function .value, "sin"⟩, ⟨.operator .value, "+"⟩, ⟨.variable, "x"⟩] :=
    tokenize_eq_ok_iff.2 ⟨_, cuts_sums, by decide⟩
  obtain ⟨slices, cut, _, spaced⟩ := parse_spread spaceless tokenizes
    fun place => [2, 3, 0, 1].getD place 0
  obtain ⟨found, cutFound, pieces⟩ := Lexer.lexFrom_eq_some_iff.2 cuts_sums
  obtain rfl := Option.some.inj (cut.symm.trans cutFound)
  have lexemes : slices.map Match.lexeme = [['s', 'i', 'n'], ['+'], ['x']] := by
    rw [← map_fst_piece, pieces]
    rfl
  exact ⟨spaceless, tokenizes, spaced "  sin   +x " (by rw [lexemes]; decide)⟩

end Tokenizer
end Reckoner
