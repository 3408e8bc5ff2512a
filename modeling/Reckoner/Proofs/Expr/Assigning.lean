import Reckoner.Proofs.Expr.Conservation
import Reckoner.Proofs.Expr.Embedding
import Reckoner.Proofs.Expr.Spacing
import Reckoner.Proofs.Standard.Rereading

/-!
# Reading assignments

No operator binds more loosely than an assignment.  So the right side of an assignment is read as
it is read alone, while the assignment waits below everything else, and it becomes the root of
the tree.
-/

namespace Reckoner

/-! ## Loose operators -/

namespace Precedences

variable {precedences : Precedences}

/-- An operator between two operands that no other operator makes be placed before it. -/
structure IsLoosest
    (precedences : Precedences)
    (operator : String)
    (spec : OperatorSpec) : Prop where
  found : precedences.specs.find? operator = some spec
  between : spec.fixity = .between
  below : ∀ name other, precedences.specs.find? name = some other →
    spec.precedence < other.precedence ∨
      (spec.precedence = other.precedence ∧ other.associativity = .right)

/-- A reordering with an operator below everything that waits and an operand before everything
that has been placed. -/
def Reordering.under (state : Reordering) (operand operator : Token) : Reordering :=
  ⟨state.placed ++ [operand], state.waiting ++ [operator], state.previous.or (some operator)⟩

section Under

variable {operand operator : Token} {mode : Mode} {spec : OperatorSpec} {state next : Reordering}

/-- Behind an operator between two operands an operand is due, and the operator waits for all
others. -/
theorem IsLoosest.isGround
    (loosest : precedences.IsLoosest operator.lexeme spec)
    (kind : operator.kind = .operator mode)
    (operand : Token) :
    Reordering.IsGround precedences ⟨[operand], [operator], some operator⟩ where
  expects := by simp [expectsOperand, kind, loosest.found, loosest.between]
  stays {name arriving} found placed := by
    rw [Precedences.placeTighter, kind]
    simp only [spec_eq_ok_iff.2 loosest.found, if_pos (loosest.below name arriving found)]

/-- An operator that waits below everything is placed last. -/
theorem placeRest_under
    (isOperator : operator.kind.isOperator = true)
    {placed waiting reversed : List Token}
    (placing : placeRest placed waiting = .ok reversed) :
    placeRest (placed ++ [operand]) (waiting ++ [operator]) =
      .ok (operator :: reversed ++ [operand]) := by
  induction waiting generalizing placed with
  | nil =>
      obtain rfl := Except.ok.inj placing
      rw [List.nil_append, placeRest, isOperator, Bool.true_or, if_pos rfl]
      rfl
  | cons top waiting hypothesis =>
      rw [placeRest] at placing
      rw [List.cons_append, placeRest]
      split at placing
      next applied =>
        rw [if_pos applied]
        exact hypothesis placing
      next => cases placing

theorem IsLoosest.shiftAll
    (loosest : precedences.IsLoosest operator.lexeme spec)
    (kind : operator.kind = .operator mode)
    {tokens : List Token}
    (shifts : precedences.shiftAll state tokens = .ok next) :
    precedences.shiftAll (state.under operand operator) tokens =
      .ok (next.under operand operator) :=
  (loosest.isGround kind operand).shiftAll shifts

end Under

/-- Behind a variable and an operator that binds most loosely tokens are read as they are read
alone. -/
theorem IsLoosest.parse
    {operator name : String}
    {mode : Mode}
    {spec : OperatorSpec}
    {tokens : List Token}
    {tree : Expr}
    (loosest : precedences.IsLoosest operator spec)
    (parses : precedences.parse tokens = .ok tree) :
    precedences.parse (⟨.variable, name⟩ :: ⟨.operator mode, operator⟩ :: tokens) =
      .ok (.binary mode operator (.variable name) tree) := by
  have spec := spec_eq_ok_iff.2 loosest.found
  obtain ⟨reversed, reorders, fits, same⟩ := parse_eq_ok_iff.1 parses
  refine parse_eq_ok_iff.2
    ⟨⟨.operator mode, operator⟩ :: reversed ++ [⟨.variable, name⟩], ?_, ⟨?_, trivial, fits⟩, ?_⟩
  · have starts : precedences.shiftAll ⟨[], [], none⟩
        (⟨.variable, name⟩ :: ⟨.operator mode, operator⟩ :: tokens) =
        precedences.shiftAll (Reordering.under ⟨[], [], none⟩ ⟨.variable, name⟩
          ⟨.operator mode, operator⟩) tokens := by
      simp [Precedences.shiftAll, Precedences.shift, resolve, expectsOperand, spec, loosest.between,
        Precedences.placeTighter, Reordering.under]
    unfold reversePostfix at reorders ⊢
    split at reorders
    next => cases reorders
    next state shifts =>
      rw [starts, loosest.shiftAll rfl shifts]
      exact placeRest_under rfl reorders
  · exact fixity?_eq_some_iff.2 ⟨_, spec, loosest.between⟩
  · simp [Expr.postorder, same, Token.bare_eq_iff]

end Precedences

/-! ## Texts one behind the other -/

namespace Tokenizer

variable {grammar : Grammar}

theorem cuts_append_space
    (spaceless : grammar.Spaceless)
    {first second : List Char}
    {pieces more : List (List Char × TokenKind)}
    (cuts : (base.load grammar).lexer.Cuts TokenKind.byPriority first pieces)
    (behind : (base.load grammar).lexer.Cuts TokenKind.byPriority second more) :
    (base.load grammar).lexer.Cuts TokenKind.byPriority (first ++ ' ' :: second)
      (pieces ++ ([' '], .whitespace) :: more) := by
  induction cuts with
  | nil => exact .cons (takes_space spaceless second) (List.cons_ne_nil _ _) behind
  | @cons lexeme rest kind pieces takes nonempty others hypothesis =>
      rw [List.append_assoc]
      refine .cons (takes_exchange spaceless takes nonempty fun text leads free => ?_) nonempty
        hypothesis
      -- Without a space nothing reaches over the one behind the first text.
      rw [← List.append_nil rest]
      refine prefix_append_of_kept leads free fun further starts free => ?_
      cases further with
      | nil => exact List.nil_prefix
      | cons next others =>
          obtain rfl := (List.cons_prefix_cons.1 starts).1
          exact absurd List.mem_cons_self free

/-- Two texts with a space between them have the tokens of both. -/
theorem tokenize_append_space
    (spaceless : grammar.Spaceless)
    {first second : String}
    {tokens more : List Token}
    (tokenizes : (base.load grammar).tokenize first = .ok tokens)
    (behind : (base.load grammar).tokenize second = .ok more) :
    (base.load grammar).tokenize (first ++ " " ++ second) = .ok (tokens ++ more) := by
  obtain ⟨pieces, cuts, rfl⟩ := tokenize_eq_ok_iff.1 tokenizes
  obtain ⟨morePieces, cutsBehind, rfl⟩ := tokenize_eq_ok_iff.1 behind
  refine tokenize_eq_ok_iff.2 ⟨pieces ++ ([' '], .whitespace) :: morePieces, ?_, ?_⟩
  · rw [String.toList_append, String.toList_append, List.append_assoc]
    exact cuts_append_space spaceless cuts cutsBehind
  · simp [tokensOf, List.filter_append]

/-- The text of one token. -/
theorem tokenize_of_isToken
    (orderly : grammar.Orderly)
    {token : Token}
    (isToken : IsToken grammar token) :
    (base.load grammar).tokenize token.lexeme = .ok [token] := by
  have stops : Stops token.kind token.lexeme.toList [] := fun _ leads => by cases leads
  have takes := isToken.2.takes orderly stops
  have cuts := Lexer.Cuts.cons takes isToken.2.nonempty .nil
  rw [List.append_nil] at cuts
  refine tokenize_eq_ok_iff.2 ⟨_, cuts, ?_⟩
  simp [tokensOf, isToken.1]

/-- Without names no token has an equals sign in it. -/
theorem notMem_of_tokenize
    (nameless : ∀ symbol, grammar.names symbol = [])
    {text : String}
    {tokens : List Token}
    (tokenizes : (base.load grammar).tokenize text = .ok tokens) :
    '=' ∉ text.toList := by
  intro sign
  obtain ⟨pieces, cuts, _⟩ := tokenize_eq_ok_iff.1 tokenizes
  rw [← cuts.flatten_eq] at sign
  obtain ⟨lexeme, isLexeme, inside⟩ := List.mem_flatten.1 sign
  obtain ⟨piece, isPiece, rfl⟩ := List.mem_map.1 isLexeme
  obtain ⟨⟨left, takes⟩, _⟩ := cuts.exists_takes isPiece
  rcases mem_languageOf_iff.1 (exists_mem_load_iff.1 takes.exists_registration) with
    shaped | ⟨_, symbol, _, named⟩
  · generalize piece.2 = kind at shaped
    cases kind with
    | number => exact absurd (isFigure_of_mem_number shaped '=' inside) (by decide)
    | «variable» =>
        exact absurd ((isWord_iff.1 (mem_variable_iff.1 shaped)).2 '=' inside) (by decide)
    | whitespace | comma | openParen | closeParen =>
        have same : piece.1 = [_] := shaped
        rw [same] at inside
        exact absurd inside (by decide)
    | functionEnd | any | operator _ | function _ => exact absurd shaped (Language.notMem_zero _)
  · rw [nameless symbol] at named
    cases named

end Tokenizer

/-! ## Assignments -/

namespace Standard

open Tokenizer

theorem spaceless : grammar.Spaceless := by
  decide

/-- Assignments bind most loosely and group to the right. -/
theorem isLoosest
    {operator : String}
    (named : operator ∈ grammar.names (.operator .tree)) :
    precedences.IsLoosest operator (.binary .right (-1)) where
  found := by
    have all : ∀ operator ∈ grammar.names (.operator .tree),
        precedences.specs.find? operator = some (.binary .right (-1)) := by
      decide
    exact all operator named
  between := rfl
  below name other found := by
    have all : ∀ entry ∈ precedences.specs.entries,
        -1 < entry.2.precedence ∨ (-1 = entry.2.precedence ∧ entry.2.associativity = .right) := by
      rw [specs_eq]
      decide
    exact all _ (Table.mem_of_find? found)

/-- A variable and a text with an assignment between them are the assignment of what is read from
the text. -/
theorem parse_assignment
    {operator name text : String}
    {tree : Expr}
    (assigns : operator ∈ grammar.names (.operator .tree))
    (named : reader.tokenize name = .ok [⟨.variable, name⟩])
    (parses : reader.parse text = .ok tree) :
    reader.parse (name ++ (" " ++ operator ++ " ") ++ text) =
      .ok (.binary .tree operator (.variable name) tree) := by
  have isToken : IsToken grammar ⟨.operator .tree, operator⟩ :=
    isToken_name (.operator .tree) assigns
  unfold Reader.parse at parses ⊢
  split at parses
  next => cases parses
  next tokens tokenizes =>
    have assignment := tokenize_append_space spaceless
      (tokenize_of_isToken orderly isToken) tokenizes
    have whole := tokenize_append_space spaceless named assignment
    have spelled : name ++ (" " ++ operator ++ " ") ++ text =
        name ++ " " ++ (operator ++ " " ++ text) := by
      simp only [String.append_assoc]
    have same : reader.tokenize (name ++ (" " ++ operator ++ " ") ++ text) = _ := spelled ▸ whole
    rw [same]
    exact (isLoosest assigns).parse parses

end Standard
end Reckoner
