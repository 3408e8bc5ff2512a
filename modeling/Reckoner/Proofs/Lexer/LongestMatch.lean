import Mathlib
import Reckoner.Expr.Token
import Reckoner.Lexer

/-!
# The longest match

A lexer runs all its patterns side by side and keeps the best candidate seen so far.  It finds what
one finds by trying every pattern alone on every piece of the text that starts at the offset: the
longest piece, then the identifier that the caller ranks highest, then the latest registration.
-/

namespace Reckoner
namespace Lexer

variable {α : Type}

/-! ## Patterns alone -/

/-- The characters of a text between two byte offsets, both of which stand between characters. -/
def IsSlice (text : String) (start stop : Nat) (lexeme : List Char) : Prop :=
  ∃ before after, text.toList = before ++ (lexeme ++ after) ∧ byteLength before = start ∧
    start + byteLength lexeme = stop

/-- A byte offset that stands between characters of a text. -/
def IsBoundary (text : String) (offset : Nat) : Prop :=
  ∃ before after, text.toList = before ++ after ∧ byteLength before = offset

/-- Where a match of one pattern ends, the identifier of the pattern and the slot in which it is
registered. -/
structure Ending (α : Type) where
  stop : Nat
  id : α
  slot : Nat

/-- Matches from one offset are ordered by where they end, then by identifier, then by
registration. -/
def Ending.rank (tieBreak : α → α → Ordering) (first second : Ending α) : Ordering :=
  ((compare first.stop second.stop).then (tieBreak first.id second.id)).then
    (compare first.slot second.slot)

/-- A registered pattern, alone, matches the text from one offset to another. -/
def MatchesAlone (lexer : Lexer α) (text : String) (start : Nat) (ending : Ending α) : Prop :=
  ∃ registration lexeme, lexer.registrations[ending.slot]? = some registration ∧
    registration.id = ending.id ∧ IsSlice text start ending.stop lexeme ∧
    registration.pattern.isMatch (String.ofList lexeme) = true

/-! ## Offsets -/

@[simp] theorem byteLength_nil : byteLength [] = 0 := rfl

@[simp] theorem byteLength_cons (character : Char) (rest : List Char) :
    byteLength (character :: rest) = character.utf8Size + byteLength rest := rfl

@[simp] theorem byteLength_append (first second : List Char) :
    byteLength (first ++ second) = byteLength first + byteLength second := by
  induction first with
  | nil => simp
  | cons character rest hypothesis => simp [hypothesis, Nat.add_assoc]

theorem byteLength_pos {characters : List Char} (nonempty : characters ≠ []) :
    0 < byteLength characters := by
  cases characters with
  | nil => exact absurd rfl nonempty
  | cons character rest =>
      have := character.utf8Size_pos
      rw [byteLength_cons]
      omega

/-- Behind the bytes of a text comes what follows it. -/
theorem fromOffset_byteLength (before after : List Char) :
    fromOffset (byteLength before) (before ++ after) = after := by
  induction before with
  | nil => cases after <;> rfl
  | cons character rest hypothesis =>
      have positive : 0 < byteLength (character :: rest) := byteLength_pos (by simp)
      obtain ⟨bytes, same⟩ := Nat.exists_eq_add_one.2 positive
      rw [same, List.cons_append, fromOffset, ← same, byteLength_cons, Nat.add_sub_cancel_left,
        hypothesis]

/-- A longer piece of the same characters takes more bytes. -/
theorem byteLength_take_lt
    {characters : List Char}
    {shorter longer : Nat}
    (less : shorter < longer)
    (within : longer ≤ characters.length) :
    byteLength (characters.take shorter) < byteLength (characters.take longer) := by
  have split : characters.take longer =
      characters.take shorter ++ (characters.drop shorter).take (longer - shorter) := by
    rw [← List.take_add, Nat.add_sub_cancel' (Nat.le_of_lt less)]
  have more : 0 < byteLength ((characters.drop shorter).take (longer - shorter)) := by
    apply byteLength_pos
    intro empty
    have := congrArg List.length empty
    simp only [List.length_take, List.length_drop, List.length_nil] at this
    omega
  rw [split, byteLength_append]
  omega

theorem compare_byteLength_take
    {characters : List Char}
    {first second : Nat}
    (firstWithin : first ≤ characters.length)
    (secondWithin : second ≤ characters.length)
    (start : Nat) :
    compare (start + byteLength (characters.take first))
        (start + byteLength (characters.take second)) =
      compare first second := by
  rcases Nat.lt_trichotomy first second with less | rfl | greater
  · have := byteLength_take_lt less secondWithin
    rw [Nat.compare_eq_lt.2 less, Nat.compare_eq_lt]
    omega
  · rw [Nat.compare_eq_eq.2 rfl, Nat.compare_eq_eq.2 rfl]
  · have := byteLength_take_lt greater firstWithin
    rw [Nat.compare_eq_gt.2 greater, Nat.compare_eq_gt]
    omega

/-- The pieces of a text from an offset are the pieces from the front of what stands there. -/
theorem isSlice_iff
    {text : String}
    {before after lexeme : List Char}
    (same : text.toList = before ++ after)
    {stop : Nat} :
    IsSlice text (byteLength before) stop lexeme ↔
      ∃ length ≤ after.length, lexeme = after.take length ∧
        byteLength before + byteLength lexeme = stop := by
  constructor
  · rintro ⟨other, rest, split, bytes, stops⟩
    have agree : after = lexeme ++ rest := by
      rw [← fromOffset_byteLength before after, ← same, split, ← bytes, fromOffset_byteLength]
    exact ⟨lexeme.length, by simp [agree], by simp [agree], stops⟩
  · rintro ⟨length, _, rfl, stops⟩
    exact ⟨before, after.drop length, by rw [List.take_append_drop, same], rfl, stops⟩

/-! ## Runners on their way -/

theorem advance_nil (automaton : Automaton) (character : Char) :
    automaton.advance [] character = [] := by
  simp [Automaton.advance, Automaton.close, Automaton.extend, NodeSet.empty]

/-- A runner after some characters. -/
def Runner.after (runner : Runner α) (characters : List Char) : Runner α :=
  { runner with live := characters.foldl runner.automaton.advance runner.live }

@[simp] theorem Runner.after_nil (runner : Runner α) : runner.after [] = runner := rfl

@[simp] theorem Runner.after_cons (runner : Runner α) (character : Char) (rest : List Char) :
    runner.after (character :: rest) = (runner.advance character).after rest := rfl

/-- A runner without live nodes never accepts again. -/
theorem Runner.accepting_after_eq_false
    {runner : Runner α}
    (dead : runner.alive = false)
    (characters : List Char) :
    (runner.after characters).accepting = false := by
  have live : runner.live = [] := by simpa [Runner.alive] using dead
  induction characters generalizing runner with
  | nil => simp [Runner.accepting, live, Automaton.acceptsAt]
  | cons character rest hypothesis =>
      have next : (runner.advance character).live = [] := by
        rw [Runner.advance, live, advance_nil]
      rw [Runner.after_cons]
      exact hypothesis (by simp [Runner.alive, next]) next

/-- The candidate of a runner that accepts. -/
def OfferedBy (length : Nat) (runner : Runner α) (candidate : Candidate α) : Prop :=
  runner.accepting = true ∧ candidate = ⟨length, runner.id, runner.slot⟩

/-- A candidate that a runner offers somewhere in the remaining characters. -/
def OfferedAlong
    (length : Nat)
    (characters : List Char)
    (runner : Runner α)
    (candidate : Candidate α) : Prop :=
  ∃ further ≤ characters.length,
    OfferedBy (length + further) (runner.after (characters.take further)) candidate

theorem offeredAlong_nil_iff
    {length : Nat}
    {runner : Runner α}
    {candidate : Candidate α} :
    OfferedAlong length [] runner candidate ↔ OfferedBy length runner candidate := by
  simp [OfferedAlong]

/-- A candidate is offered at once or further along. -/
theorem offeredAlong_cons_iff
    {length : Nat}
    {character : Char}
    {rest : List Char}
    {runner : Runner α}
    {candidate : Candidate α} :
    OfferedAlong length (character :: rest) runner candidate ↔
      OfferedBy length runner candidate ∨
        OfferedAlong (length + 1) rest (runner.advance character) candidate := by
  unfold OfferedAlong
  constructor
  · rintro ⟨further, within, offered⟩
    cases further with
    | zero => exact Or.inl offered
    | succ more =>
        rw [List.take_succ_cons, Runner.after_cons, Nat.add_comm more 1, ← Nat.add_assoc]
          at offered
        exact Or.inr ⟨more, by simpa using within, offered⟩
  · rintro (offered | ⟨more, within, offered⟩)
    · exact ⟨0, Nat.zero_le _, offered⟩
    · refine ⟨more + 1, by simpa using within, ?_⟩
      rw [List.take_succ_cons, Runner.after_cons, Nat.add_comm more 1, ← Nat.add_assoc]
      exact offered

/-- Only a living runner offers anything. -/
theorem alive_of_offeredAlong
    {length : Nat}
    {characters : List Char}
    {runner : Runner α}
    {candidate : Candidate α}
    (offered : OfferedAlong length characters runner candidate) :
    runner.alive = true := by
  obtain ⟨further, _, accepting, _⟩ := offered
  cases dead : runner.alive with
  | true => rfl
  | false =>
      rw [Runner.accepting_after_eq_false dead] at accepting
      exact absurd accepting Bool.false_ne_true

/-! ## The best candidate -/

section Best

variable {tieBreak : α → α → Ordering}

instance [Std.TransCmp tieBreak] :
    Std.TransCmp fun first second : Candidate α => tieBreak first.id second.id where
  eq_swap := Std.OrientedCmp.eq_swap
  isLE_trans := Std.TransCmp.isLE_trans

instance [Std.TransCmp tieBreak] : Std.TransCmp (Candidate.rank tieBreak) :=
  inferInstanceAs (Std.TransCmp (compareLex
    (compareLex (compareOn Candidate.length) fun first second => tieBreak first.id second.id)
    (compareOn Candidate.slot)))

/-- The best of some candidates: there is none exactly when there are no candidates. -/
def IsTop
    (tieBreak : α → α → Ordering)
    (offers : Candidate α → Prop) :
    Option (Candidate α) → Prop
  | none => ∀ candidate, ¬offers candidate
  | some best => offers best ∧
      ∀ candidate, offers candidate → (candidate.rank tieBreak best).isLE = true

theorem IsTop.congr
    {offers others : Candidate α → Prop}
    {best : Option (Candidate α)}
    (top : IsTop tieBreak offers best)
    (same : ∀ candidate, offers candidate ↔ others candidate) :
    IsTop tieBreak others best := by
  rwa [show offers = others from funext fun candidate => propext (same candidate)] at top

variable [Std.TransCmp tieBreak]

/-- The candidate of one more runner. -/
theorem IsTop.consider
    {offers : Candidate α → Prop}
    {best : Option (Candidate α)}
    (top : IsTop tieBreak offers best)
    (length : Nat)
    (runner : Runner α) :
    IsTop tieBreak (fun candidate => offers candidate ∨ OfferedBy length runner candidate)
      (consider tieBreak length best runner) := by
  unfold Lexer.consider
  split
  next accepting =>
    have offered : OfferedBy length runner ⟨length, runner.id, runner.slot⟩ := ⟨accepting, rfl⟩
    cases best with
    | none =>
        refine ⟨Or.inr offered, ?_⟩
        rintro candidate (earlier | ⟨_, rfl⟩)
        · exact absurd earlier (top candidate)
        · exact Std.ReflCmp.isLE_rfl
    | some current =>
        obtain ⟨present, above⟩ := top
        simp only
        split
        next better =>
          have below := Std.OrientedCmp.lt_of_gt (beq_iff_eq.1 better)
          refine ⟨Or.inr offered, ?_⟩
          rintro candidate (earlier | ⟨_, rfl⟩)
          · exact Std.TransCmp.isLE_trans (above candidate earlier)
              (Ordering.isLE_of_eq_lt below)
          · exact Std.ReflCmp.isLE_rfl
        next notBetter =>
          refine ⟨Or.inl present, ?_⟩
          rintro candidate (earlier | ⟨_, rfl⟩)
          · exact above candidate earlier
          · exact Ordering.ne_gt_iff_isLE.1 (by simpa using notBetter)
  next silent =>
    refine top.congr fun candidate => ⟨Or.inl, ?_⟩
    rintro (earlier | ⟨accepting, _⟩)
    · exact earlier
    · exact absurd accepting silent

/-- The candidates of several runners. -/
theorem IsTop.foldl_consider
    {offers : Candidate α → Prop}
    {best : Option (Candidate α)}
    (top : IsTop tieBreak offers best)
    (length : Nat)
    (runners : List (Runner α)) :
    IsTop tieBreak
      (fun candidate => offers candidate ∨ ∃ runner ∈ runners, OfferedBy length runner candidate)
      (runners.foldl (Lexer.consider tieBreak length) best) := by
  induction runners generalizing offers best with
  | nil => simpa using top
  | cons runner runners hypothesis =>
      refine (hypothesis (top.consider length runner)).congr fun candidate => ?_
      simp [or_assoc]

/-- A run finds the best of all candidates that its runners offer on the way. -/
theorem IsTop.run
    {offers : Candidate α → Prop}
    {best : Option (Candidate α)}
    (top : IsTop tieBreak offers best)
    (runners : List (Runner α))
    (length : Nat)
    (characters : List Char) :
    IsTop tieBreak
      (fun candidate =>
        offers candidate ∨ ∃ runner ∈ runners, OfferedAlong length characters runner candidate)
      (Lexer.run tieBreak runners length best characters) := by
  induction characters generalizing offers best runners length with
  | nil =>
      refine (top.foldl_consider length runners).congr fun candidate => ?_
      simp only [offeredAlong_nil_iff]
  | cons character rest hypothesis =>
      have considered := top.foldl_consider length runners
      have whole : IsTop tieBreak
          (fun candidate => (offers candidate ∨
            ∃ runner ∈ runners, OfferedBy length runner candidate) ∨
            ∃ runner ∈ (runners.map (·.advance character)).filter Runner.alive,
              OfferedAlong (length + 1) rest runner candidate)
          (Lexer.run tieBreak runners length best (character :: rest)) := by
        unfold Lexer.run
        simp only
        split
        next none_alive =>
          rw [none_alive]
          simpa using considered
        next => exact hypothesis considered _ _
      refine whole.congr fun candidate => ?_
      have advanced : (∃ runner ∈ (runners.map (·.advance character)).filter Runner.alive,
            OfferedAlong (length + 1) rest runner candidate) ↔
          ∃ runner ∈ runners, OfferedAlong (length + 1) rest (runner.advance character)
            candidate := by
        constructor
        · rintro ⟨next, member, offered⟩
          obtain ⟨runner, present, rfl⟩ := List.mem_map.1 (List.mem_filter.1 member).1
          exact ⟨runner, present, offered⟩
        · rintro ⟨runner, present, offered⟩
          exact ⟨_, List.mem_filter.2 ⟨List.mem_map_of_mem present, alive_of_offeredAlong offered⟩,
            offered⟩
      simp only [advanced, offeredAlong_cons_iff, or_assoc, and_or_left, exists_or]

end Best

/-! ## Matches of a lexer -/

/-- A candidate is the match of a registered pattern alone, counted in characters. -/
def IsCandidate (lexer : Lexer α) (characters : List Char) (candidate : Candidate α) : Prop :=
  ∃ registration, lexer.registrations[candidate.slot]? = some registration ∧
    registration.id = candidate.id ∧ candidate.length ≤ characters.length ∧
    registration.pattern.isMatch (String.ofList (characters.take candidate.length)) = true

/-- The runners offer the candidates of their lexer. -/
theorem exists_runner_offers_iff
    {lexer : Lexer α}
    {characters : List Char}
    {candidate : Candidate α} :
    (∃ runner ∈ lexer.runners, OfferedAlong 0 characters runner candidate) ↔
      lexer.IsCandidate characters candidate := by
  constructor
  · rintro ⟨runner, member, further, within, accepting, rfl⟩
    obtain ⟨slot, inside, rfl⟩ := List.mem_mapIdx.1 member
    refine ⟨lexer.registrations[slot], List.getElem?_eq_getElem inside, rfl, ?_, ?_⟩
    · simpa using within
    · simpa [Pattern.isMatch, Automaton.accepts, Runner.accepting, Runner.after] using accepting
  · rintro ⟨registration, found, same, within, accepting⟩
    obtain ⟨inside, rfl⟩ := List.getElem?_eq_some_iff.1 found
    refine ⟨_, List.mem_mapIdx.2 ⟨candidate.slot, inside, rfl⟩, candidate.length, within, ?_, ?_⟩
    · simpa [Pattern.isMatch, Automaton.accepts, Runner.accepting, Runner.after] using accepting
    · simp [Runner.after, same]

/-- A run keeps the top of the candidates. -/
theorem isTop_run
    (lexer : Lexer α)
    (tieBreak : α → α → Ordering)
    [Std.TransCmp tieBreak]
    (characters : List Char) :
    IsTop tieBreak (lexer.IsCandidate characters)
      (run tieBreak lexer.runners 0 none characters) := by
  have nothing : IsTop tieBreak (fun _ : Candidate α => False) none := fun _ => id
  refine (nothing.run lexer.runners 0 characters).congr fun candidate => ?_
  rw [exists_runner_offers_iff, false_or]

/-- Where a candidate ends among characters that stand at an offset. -/
def Candidate.ending (start : Nat) (characters : List Char) (candidate : Candidate α) : Ending α :=
  ⟨start + byteLength (characters.take candidate.length), candidate.id, candidate.slot⟩

/-- A match on its own ends where a candidate does. -/
theorem matchesAlone_iff
    {lexer : Lexer α}
    {text : String}
    {before after : List Char}
    (same : text.toList = before ++ after)
    {ending : Ending α} :
    lexer.MatchesAlone text (byteLength before) ending ↔
      ∃ candidate, lexer.IsCandidate after candidate ∧
        candidate.ending (byteLength before) after = ending := by
  unfold MatchesAlone
  simp only [isSlice_iff same]
  constructor
  · rintro ⟨registration, _, found, sameId, ⟨length, within, rfl, stops⟩, accepting⟩
    refine ⟨⟨length, ending.id, ending.slot⟩, ⟨registration, found, sameId, within, accepting⟩, ?_⟩
    rw [Candidate.ending, stops]
  · rintro ⟨candidate, ⟨registration, found, sameId, within, accepting⟩, rfl⟩
    exact ⟨registration, _, found, sameId, ⟨candidate.length, within, rfl, rfl⟩, accepting⟩

/-- Counting bytes and counting characters order the matches alike. -/
theorem rank_ending
    {lexer : Lexer α}
    {tieBreak : α → α → Ordering}
    {characters : List Char}
    {first second : Candidate α}
    (firstCandidate : lexer.IsCandidate characters first)
    (secondCandidate : lexer.IsCandidate characters second)
    (start : Nat) :
    (first.ending start characters).rank tieBreak (second.ending start characters) =
      first.rank tieBreak second := by
  obtain ⟨_, _, _, firstWithin, _⟩ := firstCandidate
  obtain ⟨_, _, _, secondWithin, _⟩ := secondCandidate
  simp only [Ending.rank, Candidate.rank, Candidate.ending,
    compare_byteLength_take firstWithin secondWithin]

/-- Candidates of one lexer that rank alike are the same. -/
theorem IsCandidate.eq_of_rank_eq
    {lexer : Lexer α}
    {tieBreak : α → α → Ordering}
    {characters : List Char}
    {first second : Candidate α}
    (firstCandidate : lexer.IsCandidate characters first)
    (secondCandidate : lexer.IsCandidate characters second)
    (alike : first.rank tieBreak second = .eq) :
    first = second := by
  simp only [Candidate.rank, Ordering.then_eq_eq, Nat.compare_eq_eq] at alike
  obtain ⟨⟨length, _⟩, slot⟩ := alike
  obtain ⟨registration, found, firstId, _⟩ := firstCandidate
  obtain ⟨other, otherFound, secondId, _⟩ := secondCandidate
  rw [slot, otherFound, Option.some.injEq] at found
  cases first
  cases second
  simp_all

/-- A match is the one of a candidate exactly when it starts, ends and is identified like it. -/
theorem eq_match_of_ending_eq
    {text : String}
    {before after : List Char}
    (same : text.toList = before ++ after)
    {candidate : Candidate α}
    (within : candidate.length ≤ after.length)
    {found : Match α}
    {slot : Nat}
    (starts : found.start = byteLength before)
    (slice : IsSlice text (byteLength before) found.stop found.lexeme)
    (ends : candidate.ending (byteLength before) after = ⟨found.stop, found.id, slot⟩) :
    (⟨byteLength before, after.take candidate.length, candidate.id⟩ : Match α) = found := by
  obtain ⟨length, inside, lexeme, stops⟩ := (isSlice_iff same).1 slice
  simp only [Candidate.ending, Ending.mk.injEq] at ends
  obtain ⟨stop, sameId, _⟩ := ends
  have alike := compare_byteLength_take within inside (byteLength before)
  rw [stop, ← lexeme, stops, Nat.compare_eq_eq.2 rfl] at alike
  rw [Nat.compare_eq_eq.1 alike.symm, sameId, ← lexeme, ← starts]

/-- A lexer finds a match at an offset exactly when some registered pattern, alone, matches some
piece of the text from there.  The match found is the one that is greatest among all of these, by
its end, then by the rank of its identifier, then by the slot of its registration. -/
theorem lexOne?_greatest
    (lexer : Lexer α)
    (tieBreak : α → α → Ordering)
    [Std.TransCmp tieBreak]
    (text : String)
    (start : Nat)
    (boundary : IsBoundary text start) :
    (lexer.lexOne? tieBreak text start = none ↔
      ∀ ending, ¬lexer.MatchesAlone text start ending) ∧
      ∀ found, lexer.lexOne? tieBreak text start = some found ↔
        found.start = start ∧ IsSlice text start found.stop found.lexeme ∧
          ∃ slot, lexer.MatchesAlone text start ⟨found.stop, found.id, slot⟩ ∧
            ∀ other, lexer.MatchesAlone text start other →
              (other.rank tieBreak ⟨found.stop, found.id, slot⟩).isLE = true := by
  obtain ⟨before, after, same, rfl⟩ := boundary
  have top := isTop_run lexer tieBreak after
  have offset : lexer.lexOne? tieBreak text (byteLength before) =
      (run tieBreak lexer.runners 0 none after).map fun best =>
        ⟨byteLength before, after.take best.length, best.id⟩ := by
    rw [lexOne?, same, fromOffset_byteLength]
    rfl
  rw [offset]
  simp only [matchesAlone_iff same]
  cases best : run tieBreak lexer.runners 0 none after with
  | none =>
      rw [best] at top
      have alone : ∀ ending : Ending α, ¬∃ candidate, lexer.IsCandidate after candidate ∧
          candidate.ending (byteLength before) after = ending := by
        rintro ending ⟨candidate, present, _⟩
        exact top candidate present
      refine ⟨⟨fun _ => alone, fun _ => rfl⟩, fun found => ⟨by simp, ?_⟩⟩
      rintro ⟨_, _, slot, match_, _⟩
      exact absurd match_ (alone _)
  | some greatest =>
      rw [best] at top
      obtain ⟨present, above⟩ := top
      have within : greatest.length ≤ after.length := present.choose_spec.2.2.1
      have found_one : ¬∀ ending : Ending α, ¬∃ candidate, lexer.IsCandidate after candidate ∧
          candidate.ending (byteLength before) after = ending := by
        intro nothing
        exact nothing _ ⟨greatest, present, rfl⟩
      refine ⟨⟨by simp, fun nothing => absurd nothing found_one⟩, fun found => ⟨?_, ?_⟩⟩
      · intro same_found
        obtain rfl := Option.some.inj same_found
        refine ⟨rfl, (isSlice_iff same).2 ⟨greatest.length, within, rfl, rfl⟩, greatest.slot,
          ⟨greatest, present, rfl⟩, ?_⟩
        rintro _ ⟨candidate, isCandidate, rfl⟩
        exact rank_ending isCandidate present (byteLength before) ▸ above candidate isCandidate
      · rintro ⟨starts, slice, slot, ⟨candidate, isCandidate, ends⟩, above_all⟩
        have below := above_all _ ⟨greatest, present, rfl⟩
        rw [← ends, rank_ending present isCandidate] at below
        have alike := Std.OrientedCmp.isLE_antisymm below (above candidate isCandidate)
        obtain rfl := present.eq_of_rank_eq isCandidate alike
        exact congrArg some (eq_match_of_ending_eq same within starts slice ends)

/-- Ranking kinds of tokens by priority is a total preorder. -/
instance : Std.TransCmp TokenKind.byPriority :=
  inferInstanceAs (Std.TransCmp (compareOn TokenKind.priority))

/-- A function whose name is shaped like a variable, and the variables. -/
def sineAndVariables : Lexer TokenKind :=
  ⟨[⟨.function .value, ⟨"sin", .ofRegex (some (.sequence (.single (.exactly 's'))
      (.sequence (.single (.exactly 'i')) (.single (.exactly 'n')))))⟩⟩,
    ⟨.variable, ⟨"[a-z]+", .ofRegex (some (.oneOrMore (.single (.between 'a' 'z'))))⟩⟩]⟩

/-- The name of the function outranks the variable that was registered later. -/
theorem lexOne?_greatest_sine :
    IsBoundary "π+sin" 3 ∧
      sineAndVariables.lexOne? TokenKind.byPriority "π+sin" 3 =
        some ⟨3, ['s', 'i', 'n'], .function .value⟩ ∧
      ∃ slot, sineAndVariables.MatchesAlone "π+sin" 3 ⟨6, .function .value, slot⟩ ∧
        ∀ other, sineAndVariables.MatchesAlone "π+sin" 3 other →
          (other.rank TokenKind.byPriority ⟨6, .function .value, slot⟩).isLE = true := by
  have boundary : IsBoundary "π+sin" 3 := ⟨['π', '+'], ['s', 'i', 'n'], by decide, by decide⟩
  have found : sineAndVariables.lexOne? TokenKind.byPriority "π+sin" 3 =
      some ⟨3, ['s', 'i', 'n'], .function .value⟩ := by cbv
  have greatest := lexOne?_greatest sineAndVariables TokenKind.byPriority "π+sin" 3 boundary
  obtain ⟨_, _, slot, alone, above⟩ := (greatest.2 _).1 found
  exact ⟨boundary, found, slot, alone, above⟩

end Lexer
end Reckoner
