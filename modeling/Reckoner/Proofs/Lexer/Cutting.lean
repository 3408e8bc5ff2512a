import Reckoner.Expr.Tokenizer
import Reckoner.Proofs.Lexer.LongestMatch

/-!
# Cutting a text

A text is cut by taking the best match off its front again and again.  A relation says which pieces
this gives: they make up the text, none of them is empty, and each is the best match of what is
left.  Where the pieces stand in the text plays no part.
-/

namespace Reckoner
namespace Lexer

variable {α : Type} {lexer : Lexer α} {tieBreak : α → α → Ordering}

/-- A lexeme with an identifier is the best match at the front of the characters. -/
def Takes
    (lexer : Lexer α)
    (tieBreak : α → α → Ordering)
    (characters lexeme : List Char)
    (id : α) : Prop :=
  ∃ slot, lexeme <+: characters ∧ lexer.IsCandidate characters ⟨lexeme.length, id, slot⟩ ∧
    ∀ other, lexer.IsCandidate characters other →
      (other.rank tieBreak ⟨lexeme.length, id, slot⟩).isLE = true

/-- The pieces into which characters are cut. -/
inductive Cuts (lexer : Lexer α) (tieBreak : α → α → Ordering) :
    List Char → List (List Char × α) → Prop
  | nil : Cuts lexer tieBreak [] []
  | cons
      {lexeme rest : List Char}
      {id : α}
      {pieces : List (List Char × α)}
      (takes : lexer.Takes tieBreak (lexeme ++ rest) lexeme id)
      (nonempty : lexeme ≠ [])
      (others : Cuts lexer tieBreak rest pieces) :
      Cuts lexer tieBreak (lexeme ++ rest) ((lexeme, id) :: pieces)

/-- A match without its place. -/
def piece (found : Match α) : List Char × α :=
  (found.lexeme, found.id)

/-- Every piece is the best match of something, and not empty. -/
theorem Cuts.exists_takes
    {characters : List Char}
    {pieces : List (List Char × α)}
    {piece : List Char × α}
    (cuts : lexer.Cuts tieBreak characters pieces)
    (member : piece ∈ pieces) :
    (∃ left, lexer.Takes tieBreak left piece.1 piece.2) ∧ piece.1 ≠ [] := by
  induction cuts with
  | nil => cases member
  | cons takes nonempty _ hypothesis =>
      rcases List.mem_cons.1 member with rfl | later
      · exact ⟨⟨_, takes⟩, nonempty⟩
      · exact hypothesis later

/-- The pieces make up the characters. -/
theorem Cuts.flatten_eq
    {characters : List Char}
    {pieces : List (List Char × α)}
    (cuts : lexer.Cuts tieBreak characters pieces) :
    (pieces.map Prod.fst).flatten = characters := by
  induction cuts with
  | nil => rfl
  | cons _ _ _ hypothesis => rw [List.map_cons, List.flatten_cons, hypothesis]

variable [Std.TransCmp tieBreak]

theorem lexAt?_eq_some_iff
    {start : Nat}
    {characters : List Char}
    {found : Match α} :
    lexer.lexAt? tieBreak start characters = some found ↔
      found.start = start ∧ lexer.Takes tieBreak characters found.lexeme found.id := by
  have top := isTop_run lexer tieBreak characters
  unfold lexAt?
  rw [Option.map_eq_some_iff]
  constructor
  · rintro ⟨best, same, rfl⟩
    rw [same] at top
    obtain ⟨present, above⟩ := top
    have within : best.length ≤ characters.length := present.choose_spec.2.2.1
    have length : (characters.take best.length).length = best.length := by simpa using within
    refine ⟨rfl, best.slot, List.take_prefix _ _, ?_, ?_⟩
    · simp only [length]
      exact present
    · simp only [length]
      exact above
  · rintro ⟨rfl, slot, leads, present, above⟩
    cases best : run tieBreak lexer.runners 0 none characters with
    | none =>
        rw [best] at top
        exact absurd present (top _)
    | some greatest =>
        rw [best] at top
        obtain ⟨isCandidate, greatestAbove⟩ := top
        have alike := Std.OrientedCmp.isLE_antisymm (greatestAbove _ present)
          (above _ isCandidate)
        obtain rfl := present.eq_of_rank_eq isCandidate alike
        refine ⟨_, rfl, ?_⟩
        rw [← List.prefix_iff_eq_take.1 leads]

/-- Among candidates there is a best one. -/
theorem IsCandidate.exists_takes
    (tieBreak : α → α → Ordering)
    [Std.TransCmp tieBreak]
    {characters : List Char}
    {candidate : Candidate α}
    (isCandidate : lexer.IsCandidate characters candidate) :
    ∃ lexeme id, lexer.Takes tieBreak characters lexeme id := by
  have top := isTop_run lexer tieBreak characters
  cases best : run tieBreak lexer.runners 0 none characters with
  | none =>
      rw [best] at top
      exact absurd isCandidate (top candidate)
  | some greatest =>
      have found : lexer.lexAt? tieBreak 0 characters =
          some ⟨0, characters.take greatest.length, greatest.id⟩ := by
        rw [lexAt?, best, Option.map_some]
      exact ⟨_, _, (lexAt?_eq_some_iff.1 found).2⟩

theorem lexFrom_append
    {lexeme rest : List Char}
    {id : α}
    (takes : lexer.Takes tieBreak (lexeme ++ rest) lexeme id)
    (nonempty : lexeme ≠ [])
    (start : Nat) :
    lexer.lexFrom tieBreak start (lexeme ++ rest) =
      (lexer.lexFrom tieBreak (start + byteLength lexeme) rest).map (⟨start, lexeme, id⟩ :: ·) := by
  have found : lexer.lexAt? tieBreak start (lexeme ++ rest) = some ⟨start, lexeme, id⟩ :=
    lexAt?_eq_some_iff.2 ⟨rfl, takes⟩
  cases lexeme with
  | nil => exact absurd rfl nonempty
  | cons first others =>
      rw [List.cons_append] at found ⊢
      rw [lexFrom, found]
      simp only [List.isEmpty_cons, Bool.false_eq_true, ↓reduceIte, List.length_cons,
        Nat.add_sub_cancel, List.drop_left, Match.stop]

/-- A text can be cut only if a nonempty piece can be taken off its front. -/
theorem exists_takes_of_lexFrom
    {start : Nat}
    {first : Char}
    {rest : List Char}
    {found : List (Match α)}
    (cut : lexer.lexFrom tieBreak start (first :: rest) = some found) :
    ∃ lexeme behind id, first :: rest = lexeme ++ behind ∧ lexeme ≠ [] ∧
      lexer.Takes tieBreak (lexeme ++ behind) lexeme id := by
  rw [lexFrom] at cut
  split at cut
  next => cases cut
  next match_ takes =>
    obtain ⟨_, takes⟩ := lexAt?_eq_some_iff.1 takes
    have leads : match_.lexeme <+: first :: rest := takes.choose_spec.1
    obtain ⟨behind, same⟩ := leads
    split at cut
    next => cases cut
    next nonempty =>
      refine ⟨match_.lexeme, behind, match_.id, same.symm, ?_, same ▸ takes⟩
      simpa using nonempty

/-- Cutting finds exactly the pieces that the relation allows. -/
theorem lexFrom_eq_some_iff
    {start : Nat}
    {characters : List Char}
    {pieces : List (List Char × α)} :
    (∃ found, lexer.lexFrom tieBreak start characters = some found ∧ found.map piece = pieces) ↔
      lexer.Cuts tieBreak characters pieces := by
  constructor
  · rintro ⟨found, cut, rfl⟩
    induction size : characters.length using Nat.strongRecOn
        generalizing start characters found with
    | ind length hypothesis =>
        subst size
        cases characters with
        | nil =>
            rw [lexFrom] at cut
            obtain rfl := Option.some.inj cut
            exact .nil
        | cons first rest =>
            obtain ⟨lexeme, behind, id, same, nonempty, takes⟩ := exists_takes_of_lexFrom cut
            have shorter : behind.length < (first :: rest).length := by
              have positive := List.length_pos_of_ne_nil nonempty
              rw [same, List.length_append]
              omega
            rw [same] at cut ⊢
            rw [lexFrom_append takes nonempty] at cut
            obtain ⟨others, further, rfl⟩ := Option.map_eq_some_iff.1 cut
            exact .cons takes nonempty (hypothesis _ shorter others further rfl)
  · intro cuts
    induction cuts generalizing start with
    | nil => exact ⟨[], by rw [lexFrom], rfl⟩
    | @cons lexeme rest id pieces takes nonempty _ hypothesis =>
        obtain ⟨found, cut, same⟩ := @hypothesis (start + byteLength lexeme)
        refine ⟨⟨start, lexeme, id⟩ :: found, ?_, ?_⟩
        · rw [lexFrom_append takes nonempty, cut]
          rfl
        · rw [List.map_cons, same]
          rfl

end Lexer

namespace Tokenizer

/-- The tokens of pieces, spaces being dropped. -/
def tokensOf (pieces : List (List Char × TokenKind)) : List Token :=
  (pieces.filter (·.2 != .whitespace)).map fun piece => ⟨piece.2, String.ofList piece.1⟩

/-- The empty text is cut like any other one. -/
theorem tokenize_eq (tokenizer : Tokenizer) (text : String) :
    tokenizer.tokenize text =
      match tokenizer.lexer.lexFrom TokenKind.byPriority 0 text.toList with
      | none => .error (.noTokenAt (tokenizer.lexer.reach TokenKind.byPriority 0 text.toList))
      | some found =>
          .ok ((found.filter (fun match_ => match_.id != .whitespace)).map tokenOf) := by
  unfold tokenize
  cases characters : text.toList with
  | nil =>
      obtain rfl : text = "" := String.toList_eq_nil_iff.1 characters
      rw [Lexer.lexFrom]
      rfl
  | cons first rest =>
      have nonempty : text.isEmpty = false := by
        rw [String.isEmpty_eq_false_iff, ne_eq, ← String.toList_eq_nil_iff, characters]
        exact List.cons_ne_nil first rest
      have lexed : tokenizer.lexer.lexAll? TokenKind.byPriority text 0 =
          tokenizer.lexer.lexFrom TokenKind.byPriority 0 (first :: rest) := by
        simp only [Lexer.lexAll?, characters, Lexer.fromOffset]
      cases found : tokenizer.lexer.lexFrom TokenKind.byPriority 0 (first :: rest) <;>
        simp only [nonempty, Bool.false_eq_true, ↓reduceIte, lexed, found]

/-- A text has the tokens of the pieces into which it is cut. -/
theorem tokenize_eq_ok_iff {tokenizer : Tokenizer} {text : String} {tokens : List Token} :
    tokenizer.tokenize text = .ok tokens ↔
      ∃ pieces, tokenizer.lexer.Cuts TokenKind.byPriority text.toList pieces ∧
        tokensOf pieces = tokens := by
  have tokens_map (found : List (Match TokenKind)) :
      tokensOf (found.map Lexer.piece) =
        (found.filter (fun match_ => match_.id != .whitespace)).map tokenOf := by
    rw [tokensOf, List.filter_map, List.map_map]
    rfl
  rw [tokenize_eq]
  constructor
  · intro cut
    split at cut
    next => cases cut
    next found cutting =>
      obtain rfl := Except.ok.inj cut
      exact ⟨_, Lexer.lexFrom_eq_some_iff.1 ⟨found, cutting, rfl⟩, tokens_map found⟩
  · rintro ⟨pieces, cuts, rfl⟩
    obtain ⟨found, cut, rfl⟩ := Lexer.lexFrom_eq_some_iff.2 cuts
    rw [cut, tokens_map]

end Tokenizer
end Reckoner
