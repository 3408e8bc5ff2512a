import Reckoner.Failure
import Reckoner.Proofs.Lexer.Cutting

/-!
# Walking over a text

A lexer walks over a text: it takes the best match off the front, again and again, as long as there
is one that is not empty.  Where the walk ends before the text does, nothing but empty matches are
found, and the part of the text that lies behind the walk is cut just as it was on the way.
-/

namespace Reckoner
namespace Lexer

variable {α : Type} {lexer : Lexer α} {tieBreak : α → α → Ordering}

/-! ## Matches at the front -/

/-- The pieces that a registered pattern matches are the candidates of their lengths. -/
theorem exists_isCandidate_iff
    {characters lexeme : List Char}
    {id : α}
    (leads : lexeme <+: characters) :
    (∃ slot, lexer.IsCandidate characters ⟨lexeme.length, id, slot⟩) ↔
      ∃ registration ∈ lexer.registrations, registration.id = id ∧
        registration.pattern.isMatch (String.ofList lexeme) = true := by
  have taken : characters.take lexeme.length = lexeme := (List.prefix_iff_eq_take.1 leads).symm
  unfold IsCandidate
  simp only [taken, leads.length_le, true_and]
  constructor
  · rintro ⟨slot, registration, found, same, accepting⟩
    exact ⟨registration, List.mem_of_getElem? found, same, accepting⟩
  · rintro ⟨registration, member, same, accepting⟩
    obtain ⟨slot, found⟩ := List.mem_iff_getElem?.1 member
    exact ⟨slot, registration, found, same, accepting⟩

/-- A candidate of characters that begin alike. -/
theorem IsCandidate.of_take_eq
    {characters others : List Char}
    {candidate : Candidate α}
    (isCandidate : lexer.IsCandidate characters candidate)
    (within : candidate.length ≤ others.length)
    (alike : others.take candidate.length = characters.take candidate.length) :
    lexer.IsCandidate others candidate := by
  obtain ⟨registration, found, same, _, accepting⟩ := isCandidate
  exact ⟨registration, found, same, within, alike ▸ accepting⟩

/-- What is taken off the front is matched by a registered pattern. -/
theorem Takes.exists_registration
    {characters lexeme : List Char}
    {id : α}
    (takes : lexer.Takes tieBreak characters lexeme id) :
    ∃ registration ∈ lexer.registrations, registration.id = id ∧
      registration.pattern.isMatch (String.ofList lexeme) = true := by
  obtain ⟨slot, leads, isCandidate, _⟩ := takes
  exact (exists_isCandidate_iff leads).1 ⟨slot, isCandidate⟩

/-- No registered pattern matches a piece that is longer than what is taken off the front, or of the
same length under an identifier of a higher rank. -/
theorem Takes.isLE
    {characters lexeme other : List Char}
    {id : α}
    {registration : Registration α}
    (takes : lexer.Takes tieBreak characters lexeme id)
    (member : registration ∈ lexer.registrations)
    (leads : other <+: characters)
    (accepting : registration.pattern.isMatch (String.ofList other) = true) :
    ((compare other.length lexeme.length).then (tieBreak registration.id id)).isLE = true := by
  obtain ⟨slot, _, _, above⟩ := takes
  obtain ⟨otherSlot, isOther⟩ :=
    (exists_isCandidate_iff leads).2 ⟨registration, member, rfl, accepting⟩
  have below := above _ isOther
  rw [Candidate.rank] at below
  revert below
  cases (compare other.length lexeme.length).then (tieBreak registration.id id) <;> simp

/-- What is taken is as long as anything that matches. -/
theorem Takes.length_le
    {characters lexeme other : List Char}
    {id : α}
    {registration : Registration α}
    (takes : lexer.Takes tieBreak characters lexeme id)
    (member : registration ∈ lexer.registrations)
    (leads : other <+: characters)
    (accepting : registration.pattern.isMatch (String.ofList other) = true) :
    other.length ≤ lexeme.length := by
  have below := takes.isLE member leads accepting
  by_contra longer
  rw [Nat.compare_eq_gt.2 (by omega)] at below
  cases below

/-- What is taken comes first among matches of its length. -/
theorem Takes.tieBreak_isLE
    {characters lexeme : List Char}
    {id : α}
    {registration : Registration α}
    (takes : lexer.Takes tieBreak characters lexeme id)
    (member : registration ∈ lexer.registrations)
    (accepting : registration.pattern.isMatch (String.ofList lexeme) = true) :
    (tieBreak registration.id id).isLE = true := by
  have below := takes.isLE member takes.choose_spec.1 accepting
  rwa [Nat.compare_eq_eq.2 rfl, Ordering.eq_then] at below

/-- What is taken off the front is also taken off other characters that begin with it, if these have
no longer candidates of their own. -/
theorem Takes.of_prefix
    {characters others lexeme : List Char}
    {id : α}
    (takes : lexer.Takes tieBreak characters lexeme id)
    (leads : lexeme <+: others)
    (longer : ∀ candidate, lexeme.length < candidate.length →
      lexer.IsCandidate others candidate → lexer.IsCandidate characters candidate) :
    lexer.Takes tieBreak others lexeme id := by
  obtain ⟨slot, starts, isCandidate, above⟩ := takes
  have alike {length : Nat} (short : length ≤ lexeme.length) :
      others.take length = characters.take length := by
    obtain ⟨rest, rfl⟩ := starts
    obtain ⟨otherRest, rfl⟩ := leads
    rw [List.take_append_of_le_length short, List.take_append_of_le_length short]
  refine ⟨slot, leads, isCandidate.of_take_eq leads.length_le (alike (Nat.le_refl _)), ?_⟩
  intro other isOther
  refine above other ?_
  rcases Nat.lt_or_ge lexeme.length other.length with more | short
  · exact longer other more isOther
  · exact isOther.of_take_eq (Nat.le_trans short starts.length_le) (alike short).symm

/-! ## Where nothing can be taken -/

/-- No registered pattern matches a piece at the front of characters, the empty one apart. -/
def Stuck (lexer : Lexer α) (characters : List Char) : Prop :=
  ∀ registration ∈ lexer.registrations, ∀ lexeme, lexeme <+: characters →
    registration.pattern.isMatch (String.ofList lexeme) = true → lexeme = []

theorem Takes.not_stuck
    {characters lexeme : List Char}
    {id : α}
    (takes : lexer.Takes tieBreak characters lexeme id)
    (nonempty : lexeme ≠ []) :
    ¬lexer.Stuck characters := by
  intro stuck
  obtain ⟨registration, member, _, accepting⟩ := takes.exists_registration
  exact nonempty (stuck registration member lexeme takes.choose_spec.1 accepting)

theorem Takes.stuck
    {characters : List Char}
    {id : α}
    (takes : lexer.Takes tieBreak characters [] id) :
    lexer.Stuck characters := by
  intro registration member lexeme leads accepting
  exact List.length_eq_zero_iff.1 (Nat.le_zero.1 (takes.length_le member leads accepting))

/-- Either a nonempty piece can be taken off the front, or there is none at all. -/
theorem exists_takes_or_stuck
    (lexer : Lexer α)
    (tieBreak : α → α → Ordering)
    [Std.TransCmp tieBreak]
    (characters : List Char) :
    (∃ lexeme rest id, characters = lexeme ++ rest ∧ lexeme ≠ [] ∧
      lexer.Takes tieBreak (lexeme ++ rest) lexeme id) ∨ lexer.Stuck characters := by
  by_cases stuck : lexer.Stuck characters
  · exact Or.inr stuck
  · simp only [Stuck, not_forall] at stuck
    obtain ⟨registration, member, piece, leads, accepting, _⟩ := stuck
    obtain ⟨slot, isCandidate⟩ :=
      (exists_isCandidate_iff leads).2 ⟨registration, member, rfl, accepting⟩
    obtain ⟨lexeme, id, takes⟩ := isCandidate.exists_takes tieBreak
    by_cases nonempty : lexeme = []
    · exact Or.inr (nonempty ▸ takes).stuck
    · obtain ⟨rest, rfl⟩ := takes.choose_spec.1
      exact Or.inl ⟨lexeme, rest, id, rfl, nonempty, takes⟩

section Deciding

variable [Std.TransCmp tieBreak]

/-- Where the lexer is stuck it takes nothing. -/
theorem lexAt?_of_stuck
    {start : Nat}
    {characters : List Char}
    {found : Match α}
    (stuck : lexer.Stuck characters)
    (taken : lexer.lexAt? tieBreak start characters = some found) :
    found.lexeme = [] := by
  by_contra nonempty
  exact (lexAt?_eq_some_iff.1 taken).2.not_stuck nonempty stuck

/-- A lexer that is stuck fails. -/
theorem lexFrom_of_stuck
    {first : Char}
    {rest : List Char}
    (stuck : lexer.Stuck (first :: rest))
    (start : Nat) :
    lexer.lexFrom tieBreak start (first :: rest) = none := by
  rw [lexFrom]
  split
  next => rfl
  next found taken => rw [lexAt?_of_stuck stuck taken, List.isEmpty_nil, if_pos rfl]

theorem reach_of_stuck
    {characters : List Char}
    (stuck : lexer.Stuck characters)
    (start : Nat) :
    lexer.reach tieBreak start characters = start := by
  unfold reach
  split
  next => rfl
  next =>
    split
    next => rfl
    next found taken => rw [lexAt?_of_stuck stuck taken, List.isEmpty_nil, if_pos rfl]

/-- The lexer gets as far behind a lexeme as the rest allows. -/
theorem reach_append
    {lexeme rest : List Char}
    {id : α}
    (takes : lexer.Takes tieBreak (lexeme ++ rest) lexeme id)
    (nonempty : lexeme ≠ [])
    (start : Nat) :
    lexer.reach tieBreak start (lexeme ++ rest) =
      lexer.reach tieBreak (start + byteLength lexeme) rest := by
  have found : lexer.lexAt? tieBreak start (lexeme ++ rest) = some ⟨start, lexeme, id⟩ :=
    lexAt?_eq_some_iff.2 ⟨rfl, takes⟩
  cases lexeme with
  | nil => exact absurd rfl nonempty
  | cons first others =>
      rw [List.cons_append] at found ⊢
      rw [reach, found]
      simp only [List.isEmpty_cons, Bool.false_eq_true, ↓reduceIte, List.length_cons,
        Nat.add_sub_cancel, List.drop_left, Match.stop]

end Deciding

/-! ## Walks -/

/-- Pieces that are taken off the front of characters one after the other, and what is left. -/
inductive Walks (lexer : Lexer α) (tieBreak : α → α → Ordering) :
    List Char → List (List Char × α) → List Char → Prop
  | stop (rest : List Char) : Walks lexer tieBreak rest [] rest
  | step
      {lexeme behind rest : List Char}
      {id : α}
      {pieces : List (List Char × α)}
      (takes : lexer.Takes tieBreak (lexeme ++ behind) lexeme id)
      (nonempty : lexeme ≠ [])
      (others : Walks lexer tieBreak behind pieces rest) :
      Walks lexer tieBreak (lexeme ++ behind) ((lexeme, id) :: pieces) rest

namespace Walks

variable {characters rest : List Char} {pieces : List (List Char × α)}

theorem eq_append (walks : lexer.Walks tieBreak characters pieces rest) :
    characters = pieces.flatMap Prod.fst ++ rest := by
  induction walks with
  | stop rest => rfl
  | step _ _ _ hypothesis => rw [List.flatMap_cons, List.append_assoc, ← hypothesis]

/-- Each piece was taken off all that stood behind the pieces before it. -/
theorem takes_of_eq_append
    {before after : List (List Char × α)}
    {piece : List Char × α}
    (walks : lexer.Walks tieBreak characters pieces rest)
    (split : pieces = before ++ piece :: after) :
    piece.1 ≠ [] ∧
      lexer.Takes tieBreak (piece.1 ++ (after.flatMap Prod.fst ++ rest)) piece.1 piece.2 := by
  induction walks generalizing before with
  | stop rest => simp at split
  | @step lexeme behind _ _ _ takes nonempty others hypothesis =>
      cases before with
      | nil =>
          obtain ⟨rfl, rfl⟩ := List.cons.inj split
          rw [← others.eq_append]
          exact ⟨nonempty, takes⟩
      | cons first before => exact hypothesis (List.cons.inj split).2

/-- A walk to the end of the characters cuts them, and so does a walk over a part of them: what is
taken on the way does not depend on what lies behind the walk. -/
theorem cuts (walks : lexer.Walks tieBreak characters pieces rest) :
    lexer.Cuts tieBreak (pieces.flatMap Prod.fst) pieces := by
  induction walks with
  | stop rest => exact .nil
  | @step lexeme behind rest _ pieces takes nonempty others hypothesis =>
      rw [List.flatMap_cons]
      refine .cons (takes.of_prefix (List.prefix_append _ _) fun candidate _ isCandidate => ?_)
        nonempty hypothesis
      have shorter : lexeme ++ pieces.flatMap Prod.fst <+: lexeme ++ behind :=
        ⟨rest, by rw [others.eq_append, List.append_assoc]⟩
      have within : candidate.length ≤ (lexeme ++ pieces.flatMap Prod.fst).length :=
        isCandidate.choose_spec.2.2.1
      refine isCandidate.of_take_eq (Nat.le_trans within shorter.length_le) ?_
      obtain ⟨_, same⟩ := shorter
      rw [← same, List.take_append_of_le_length within]

variable [Std.TransCmp tieBreak]

/-- The two readings of a text go along its walk: one collects the pieces and fails when the walk
ends too early, the other counts the bytes. -/
theorem lexFrom_reach
    (walks : lexer.Walks tieBreak characters pieces rest)
    (stuck : lexer.Stuck rest)
    (start : Nat) :
    (lexer.lexFrom tieBreak start characters = none ↔ rest ≠ []) ∧
      lexer.reach tieBreak start characters = start + byteLength (pieces.flatMap Prod.fst) := by
  induction walks generalizing start with
  | stop rest =>
      refine ⟨?_, reach_of_stuck stuck start⟩
      cases rest with
      | nil => simp [lexFrom]
      | cons first others => simp [lexFrom_of_stuck stuck]
  | @step lexeme _ _ _ _ takes nonempty _ hypothesis =>
      obtain ⟨cut, reached⟩ := hypothesis stuck (start + byteLength lexeme)
      rw [lexFrom_append takes nonempty, reach_append takes nonempty, Option.map_eq_none_iff,
        reached, List.flatMap_cons, byteLength_append, Nat.add_assoc]
      exact ⟨cut, rfl⟩

end Walks

/-- Every text has a walk that goes on until nothing more can be taken. -/
theorem exists_walks
    (lexer : Lexer α)
    (tieBreak : α → α → Ordering)
    [Std.TransCmp tieBreak]
    (characters : List Char) :
    ∃ pieces rest, lexer.Walks tieBreak characters pieces rest ∧ lexer.Stuck rest := by
  induction size : characters.length using Nat.strongRecOn generalizing characters with
  | ind length hypothesis =>
      subst size
      rcases exists_takes_or_stuck lexer tieBreak characters with
        ⟨lexeme, behind, id, rfl, nonempty, takes⟩ | stuck
      · have shorter : behind.length < (lexeme ++ behind).length := by
          have positive := List.length_pos_of_ne_nil nonempty
          rw [List.length_append]
          omega
        obtain ⟨pieces, rest, walks, stuck⟩ := hypothesis _ shorter behind rfl
        exact ⟨_, rest, .step takes nonempty walks, stuck⟩
      · exact ⟨[], characters, .stop characters, stuck⟩

end Lexer

namespace Tokenizer

/-- A slice at the front of characters that a registered pattern matches: there is no longer one,
and none of the same length has a kind of a higher priority. -/
structure Prefers
    (tokenizer : Tokenizer)
    (characters lexeme : List Char)
    (kind : TokenKind) : Prop where
  leads : lexeme <+: characters
  matched : ∃ registration ∈ tokenizer.lexer.registrations,
    registration.id = kind ∧ registration.pattern.isMatch (String.ofList lexeme) = true
  longest : ∀ registration ∈ tokenizer.lexer.registrations, ∀ other, other <+: characters →
    registration.pattern.isMatch (String.ofList other) = true → other.length ≤ lexeme.length
  highest : ∀ registration ∈ tokenizer.lexer.registrations,
    registration.pattern.isMatch (String.ofList lexeme) = true →
      registration.id.priority ≤ kind.priority

theorem prefers_of_takes
    {tokenizer : Tokenizer}
    {characters lexeme : List Char}
    {kind : TokenKind}
    (takes : tokenizer.lexer.Takes TokenKind.byPriority characters lexeme kind) :
    tokenizer.Prefers characters lexeme kind where
  leads := takes.choose_spec.1
  matched := takes.exists_registration
  longest _ member _ leads accepting := takes.length_le member leads accepting
  highest _ member accepting := Std.isLE_compare.1 (takes.tieBreak_isLE member accepting)

/-- A tokenizer cuts a text into slices that follow upon each other without a gap.  None is empty,
and each is the longest at its place that a pattern matches, of the highest priority.  If they cover
the text, then they become its tokens; else the failure names the offset behind the last of them,
where no pattern matches anything but the empty slice, and the text up to there has these tokens. -/
theorem tokenize_slices (tokenizer : Tokenizer) (text : String) :
    ∃ slices rest, text.toList = slices.flatMap Prod.fst ++ rest ∧
      (∀ before slice after, slices = before ++ slice :: after →
        slice.1 ≠ [] ∧
          tokenizer.Prefers (slice.1 ++ (after.flatMap Prod.fst ++ rest)) slice.1 slice.2) ∧
      ((rest = [] ∧ tokenizer.tokenize text = .ok (tokensOf slices)) ∨
        ∃ offset, offset = byteLength (slices.flatMap Prod.fst) ∧
          offset < byteLength text.toList ∧ Lexer.IsBoundary text offset ∧
          tokenizer.tokenize text = .error (.noTokenAt offset) ∧
          (Failure.noTokenAt offset).detail = "no token matches at offset " ++ toString offset ∧
          tokenizer.tokenize (String.ofList (slices.flatMap Prod.fst)) = .ok (tokensOf slices) ∧
          tokenizer.lexer.Stuck rest) := by
  obtain ⟨slices, rest, walks, stuck⟩ :=
    Lexer.exists_walks tokenizer.lexer TokenKind.byPriority text.toList
  have covers := walks.eq_append
  obtain ⟨cut, reached⟩ := walks.lexFrom_reach stuck 0
  refine ⟨slices, rest, covers, ?_, ?_⟩
  · intro before slice after split
    obtain ⟨nonempty, takes⟩ := walks.takes_of_eq_append split
    exact ⟨nonempty, prefers_of_takes takes⟩
  · by_cases whole : rest = []
    · refine Or.inl ⟨whole, tokenize_eq_ok_iff.2 ⟨slices, ?_, rfl⟩⟩
      rw [covers, whole, List.append_nil]
      exact walks.cuts
    · have positive := Lexer.byteLength_pos whole
      refine Or.inr ⟨_, rfl, ?_, ⟨_, _, covers, rfl⟩, ?_, rfl, ?_, stuck⟩
      · rw [covers, Lexer.byteLength_append]
        omega
      · rw [tokenize_eq, cut.2 whole, reached, Nat.zero_add]
      · refine tokenize_eq_ok_iff.2 ⟨slices, ?_, rfl⟩
        rw [String.toList_ofList]
        exact walks.cuts

end Tokenizer
end Reckoner
