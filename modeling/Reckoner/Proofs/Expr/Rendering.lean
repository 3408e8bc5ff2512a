import Reckoner.Proofs.Expr.Rereading
import Reckoner.Proofs.Expr.Resolution
import Reckoner.Proofs.Expr.Spelling

/-!
# Reading the rendering of a tree

The rendering of a tree is read as the tree again unless one of three things happens in it: a `-`
looks like a sign, an operator is taken along by the one that is rendered in front of it, or the
name of an operator runs together with the word beside it.
-/

namespace Reckoner

open Token

namespace Expr

/-! ## Neighbours -/

/-- The token with which the rendering of a tree begins. -/
def start : Expr → Token
  | .number text => ⟨.number, text⟩
  | .variable name => ⟨.variable, name⟩
  | .binary .. | .unary .. => opening
  | .call mode name _ => ⟨.function mode, name⟩

mutual

/-- Whether every operator between two operands is related to its neighbours in the rendering. -/
def Beside (related : Token → Token → Prop) : Expr → Prop
  | .number _ => True
  | .variable _ => True
  | .binary mode operator left right =>
      related left.finish ⟨.operator mode, operator⟩ ∧
        related ⟨.operator mode, operator⟩ right.start ∧
        left.Beside related ∧ right.Beside related
  | .unary _ _ _ operand => operand.Beside related
  | .call _ _ arguments => BesideAll related arguments

/-- Whether every operator of several trees is related to its neighbours. -/
def BesideAll (related : Token → Token → Prop) : List Expr → Prop
  | [] => True
  | first :: rest => first.Beside related ∧ BesideAll related rest

end

theorem exists_written (tree : Expr) : ∃ others, tree.written = tree.start :: others := by
  cases tree with
  | number | «variable» | binary | unary | call => exact ⟨_, rfl⟩

/-- Whether parentheses and commas are related to everything. -/
def Free (related : Token → Token → Prop) : Prop :=
  ∀ blank ∈ [opening, closing, separator], ∀ token, related blank token ∧ related token blank

theorem free_unlike : Free Token.Unlike := by
  intro blank member token
  have noNumber : blank.kind ≠ .number := by
    revert blank
    decide
  exact ⟨fun numbers => noNumber numbers.1, fun numbers => noNumber numbers.2⟩

theorem free_apart : Free Token.Apart := by
  intro blank member token
  have noWord : blank.isWord = false := by
    revert blank
    decide
  constructor
  · rintro ⟨word, _⟩
    rw [noWord] at word
    cases word
  · rintro ⟨_, word⟩
    rw [noWord] at word
    cases word

variable {related : Token → Token → Prop}

/-- What is related to everything may stand in front. -/
theorem isChain_cons_of_free
    {token : Token}
    (free : Free related)
    (blank : token ∈ [opening, closing, separator])
    (others : List Token) :
    (token :: others).IsChain related ↔ others.IsChain related := by
  rw [List.isChain_cons, and_iff_right fun other _ => (free token blank other).1]

mutual

/-- The tokens of a rendering are related to their successors if and only if the operators are
related to their neighbours, where everything is related to parentheses and commas. -/
theorem isChain_written
    (free : Free related)
    (rest : List Token) : ∀ tree : Expr,
      (tree.written ++ rest).IsChain related ↔
        tree.Beside related ∧ (tree.finish :: rest).IsChain related
  | .number _ => by simp [written, write, Beside, finish]
  | .variable _ => by simp [written, write, Beside, finish]
  | .binary mode operator left right => by
      have ending : related right.finish closing := (free _ (by simp) _).2
      obtain ⟨others, begins⟩ := right.exists_written
      have between :
          (⟨.operator mode, operator⟩ :: (right.written ++ closing :: rest)).IsChain related ↔
            related ⟨.operator mode, operator⟩ right.start ∧
              (right.written ++ closing :: rest).IsChain related := by
        rw [begins, List.cons_append, List.isChain_cons_cons]
      rw [written_binary_append, isChain_cons_of_free free (by simp), isChain_written free _ left,
        List.isChain_cons_cons, between,
        isChain_written free _ right, List.isChain_cons_cons, Beside, finish]
      tauto
  | .unary mode operator fixity operand => by
      rw [written_unary_append, isChain_cons_of_free free (by simp), isChain_written free _ operand,
        List.isChain_cons_cons,
        List.isChain_cons_cons, Beside, finish, and_iff_right (free closing (by simp) _).2,
        and_iff_right (free _ (by simp) _).1]
  | .call mode name arguments => by
      rw [written_call_append, List.isChain_cons_cons, and_iff_right (free opening (by simp) _).2,
        isChain_cons_of_free free (by simp), isChain_writtenAll free _ arguments, Beside, finish]

theorem isChain_writtenAll
    (free : Free related)
    (rest : List Token) : ∀ trees : List Expr,
      (writeAll (fun _ => false) trees ++ closing :: rest).IsChain related ↔
        BesideAll related trees ∧ (closing :: rest).IsChain related
  | [] => by simp [writeAll, BesideAll]
  | [last] => by
      rw [writeAll, ← written, isChain_written free _ last, List.isChain_cons_cons, BesideAll,
        BesideAll, and_iff_right (free closing (by simp) _).2, and_true]
  | first :: next :: others => by
      have both : BesideAll related (first :: next :: others) ↔
          first.Beside related ∧ BesideAll related (next :: others) := Iff.rfl
      rw [writeAll_cons_append, ← written, isChain_written free _ first,
        List.isChain_cons_cons, isChain_cons_of_free free (by simp),
        isChain_writtenAll free _ (next :: others),
        and_iff_right (free separator (by simp) _).2, both,
        and_assoc]

end

mutual

/-- No operator is a number, so that no two numbers stand next to each other. -/
theorem beside_unlike : ∀ tree : Expr, tree.Beside Token.Unlike
  | .number _ => trivial
  | .variable _ => trivial
  | .binary _ _ left right => by
      refine ⟨?_, ?_, beside_unlike left, beside_unlike right⟩
      · rintro ⟨_, isNumber⟩
        cases isNumber
      · rintro ⟨isNumber, _⟩
        cases isNumber
  | .unary _ _ _ operand => beside_unlike operand
  | .call _ _ arguments => besideAll_unlike arguments

theorem besideAll_unlike : ∀ trees : List Expr, BesideAll Token.Unlike trees
  | [] => trivial
  | first :: rest => ⟨beside_unlike first, besideAll_unlike rest⟩

end

/-! ## Characters -/

mutual

/-- The rendering of a tree is made of the characters of its tokens. -/
theorem toList_render : ∀ tree : Expr, tree.render.toList = tree.written.flatMap Token.spelling
  | .number text => by simp [render, written, write, Token.spelling]
  | .variable name => by simp [render, written, write, Token.spelling]
  | .binary mode operator left right => by
      have tokens : (Expr.binary mode operator left right).written =
          opening :: (left.written ++ ⟨.operator mode, operator⟩ :: (right.written ++ [closing])) :=
        rfl
      rw [tokens, render]
      simp [toList_render left, toList_render right, Token.spelling, opening, closing]
  | .unary mode operator fixity operand => by
      have tokens : (Expr.unary mode operator fixity operand).written =
          opening :: (operand.written ++ [closing, ⟨.operator mode, operator⟩]) := rfl
      rw [tokens, render]
      simp [toList_render operand, Token.spelling, opening, closing]
  | .call mode name arguments => by
      have tokens : (Expr.call mode name arguments).written =
          ⟨.function mode, name⟩ :: opening ::
            (writeAll (fun _ => false) arguments ++ [closing]) := rfl
      rw [tokens, render]
      simp [toList_renderArguments arguments, Token.spelling, opening, closing]

theorem toList_renderArguments : ∀ trees : List Expr,
    (renderArguments trees).toList = (writeAll (fun _ => false) trees).flatMap Token.spelling
  | [] => rfl
  | [last] => by rw [renderArguments, writeAll, toList_render last, written]
  | first :: next :: rest => by
      rw [renderArguments, writeAll, ← written]
      · simp [toList_render first, toList_renderArguments (next :: rest), Token.spelling, separator]
      · exact List.cons_ne_nil next rest

end

end Expr

namespace Tokenizer

variable {grammar : Grammar}

/-- Every token of a text is given back by its lexeme. -/
theorem isToken_of_tokenize
    (distinct : ∀ symbol, (grammar.names symbol).Nodup)
    {text : String}
    {tokens : List Token}
    (cut : (base.load grammar).tokenize text = .ok tokens) :
    ∀ token ∈ tokens, IsToken grammar token := by
  obtain ⟨pieces, cuts, rfl⟩ := tokenize_eq_ok_iff.1 cut
  intro token member
  obtain ⟨⟨lexeme, kind⟩, isPiece, rfl⟩ := List.mem_map.1 member
  obtain ⟨inside, visible⟩ := List.mem_filter.1 isPiece
  obtain ⟨⟨characters, takes⟩, nonempty⟩ := cuts.exists_takes inside
  refine ⟨by simpa using visible, ?_⟩
  simpa using isLexeme_of_takes distinct takes nonempty

/-- Every token of the rendering of a tree that has been read from a text is given back by its
lexeme. -/
theorem isToken_of_parse
    (orderly : grammar.Orderly)
    (signs : IsToken grammar ⟨.operator .value, Precedences.negation⟩)
    {text : String}
    {tree : Expr}
    (parses : (Reader.base.load grammar).parse text = .ok tree) :
    ∀ token ∈ tree.written, IsToken grammar token := by
  unfold Reader.parse at parses
  split at parses
  next => cases parses
  next tokens cut =>
    have areTokens := isToken_of_tokenize orderly.distinct cut
    obtain ⟨_, _, kept⟩ := Precedences.keeps_of_parse parses
    intro token member
    cases content : token.isContent with
    | true =>
        have inside := ((Expr.perm_write tree).symm.trans kept).mem_iff.1
          (List.mem_filter.2 ⟨member, content⟩)
        rcases Precedences.mem_or_eq_of_mem_readAll (List.mem_filter.1 inside).1 with taken | rfl
        · exact areTokens token taken
        · exact signs
    | false =>
        have fixed := Expr.mem_of_mem_write content tree member
        simp only [List.mem_cons, List.not_mem_nil, or_false] at fixed
        rcases fixed with rfl | rfl | rfl
        · exact ⟨by decide, isLexeme_fixed orderly (by decide) rfl⟩
        · exact ⟨by decide, isLexeme_fixed orderly (by decide) rfl⟩
        · exact ⟨by decide, isLexeme_fixed orderly (by decide) rfl⟩

end Tokenizer

namespace Expr

theorem isChain_written_iff
    {related : Token → Token → Prop}
    (free : Free related)
    (tree : Expr) :
    tree.written.IsChain related ↔ tree.Beside related := by
  have chain := isChain_written free [] tree
  rwa [List.append_nil, and_iff_left (.singleton _)] at chain

end Expr

namespace Tokenizer

variable {grammar : Grammar}

/-- The rendering of a tree whose tokens are given back by their lexemes has these tokens if no two
words run together, and otherwise fewer that become nodes. -/
theorem tokenize_render
    (orderly : grammar.Orderly)
    {tree : Expr}
    (areTokens : ∀ token ∈ tree.written, IsToken grammar token) :
    ∃ tokens, (base.load grammar).tokenize tree.render = .ok tokens ∧
      ((tree.Beside Token.Apart ∧ tokens = tree.written) ∨
        (¬tree.Beside Token.Apart ∧
          tokens.countP Token.isContent < tree.written.countP Token.isContent)) := by
  have unlike : tree.written.IsChain Token.Unlike :=
    (Expr.isChain_written_iff Expr.free_unlike tree).2 (Expr.beside_unlike tree)
  obtain ⟨pieces, cuts, outcome⟩ := exists_cuts_spelling orderly areTokens unlike
  rw [Expr.isChain_written_iff Expr.free_apart] at outcome
  refine ⟨tokensOf pieces, tokenize_eq_ok_iff.2 ⟨pieces, ?_, rfl⟩, outcome⟩
  rwa [Expr.toList_render]

end Tokenizer

namespace Reader

variable {grammar : Grammar}

/-- A text in which tokens are written in a row, no two words beside each other, is read as these
tokens are. -/
theorem parse_eq_of_spelling
    (orderly : grammar.Orderly)
    {text : String}
    {tokens : List Token}
    (areTokens : ∀ token ∈ tokens, Tokenizer.IsToken grammar token)
    (unlike : tokens.IsChain Token.Unlike)
    (apart : tokens.IsChain Token.Apart)
    (spelled : text.toList = tokens.flatMap Token.spelling) :
    (base.load grammar).parse text = (Precedences.empty.load grammar).parse tokens := by
  obtain ⟨pieces, cuts, outcome⟩ := Tokenizer.exists_cuts_spelling orderly areTokens unlike
  rw [← spelled] at cuts
  have cut : (Tokenizer.base.load grammar).tokenize text = .ok tokens := by
    rcases outcome with ⟨_, same⟩ | ⟨joined, _⟩
    · exact Tokenizer.tokenize_eq_ok_iff.2 ⟨pieces, cuts, same⟩
    · exact absurd apart joined
  simp only [parse, tokenize, load, base, cut]

/-- A text in which names, variables and parentheses are written in a row is read as these tokens
are. -/
theorem parse_eq_of_isKnown
    (orderly : grammar.Orderly)
    (text : String)
    (tokens : List Token)
    (known : tokens.all (Tokenizer.isKnown grammar) = true)
    (apart : tokens.IsChain Token.Apart)
    (spelled : text.toList = tokens.flatMap Token.spelling) :
    (base.load grammar).parse text = (Precedences.empty.load grammar).parse tokens := by
  have areKnown := List.all_eq_true.1 known
  have unlike : tokens.IsChain Token.Unlike := by
    refine List.Pairwise.isChain (List.pairwise_of_forall_mem_list ?_)
    rintro first member second _ ⟨isNumber, _⟩
    have firstKnown := areKnown first member
    simp [Tokenizer.isKnown, isNumber] at firstKnown
  exact parse_eq_of_spelling orderly
    (fun token member => Tokenizer.isToken_of_isKnown orderly (areKnown token member)) unlike apart
    spelled

/-- A tree that fits a grammar and whose tokens are given back by their lexemes comes out of its
rendering if and only if no `-` of the rendering looks like a sign, no operator is taken along by
the one in front of it, and no two words run together. -/
theorem parse_render_iff
    (orderly : grammar.Orderly)
    {tree : Expr}
    (fits : tree.Fits (Precedences.empty.load grammar))
    (areTokens : ∀ token ∈ tree.written, Tokenizer.IsToken grammar token) :
    (base.load grammar).parse tree.render = .ok tree ↔
      ¬tree.HidesMinus ∧ ¬tree.Regroups (Precedences.empty.load grammar) ∧
        tree.Beside Token.Apart := by
  obtain ⟨tokens, cut, outcome⟩ := Tokenizer.tokenize_render orderly areTokens
  have reads : (base.load grammar).parse tree.render =
      (Precedences.empty.load grammar).parse tokens := by
    simp only [parse, tokenize, load, base, cut]
  rw [reads]
  rcases outcome with ⟨apart, rfl⟩ | ⟨joined, fewer⟩
  · rw [Precedences.parse_written_eq_self_iff fits, and_iff_left apart]
  · refine iff_of_false ?_ fun ⟨_, _, apart⟩ => joined apart
    intro rereads
    obtain ⟨_, _, kept⟩ := Precedences.keeps_of_parse rereads
    have same : (tree.written.filter Token.isContent).Perm _ :=
      (Expr.perm_write tree).symm.trans kept
    have lengths := same.length_eq
    rw [← List.countP_eq_length_filter, ← List.countP_eq_length_filter,
      Precedences.countP_isContent_readAll] at lengths
    omega

end Reader
end Reckoner
