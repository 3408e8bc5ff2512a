import Reckoner.Proofs.Expr.Arrangement

/-!
# Leaves and symbols

A tree that is read from tokens has their numbers and variables as its leaves, in the same order,
and their operators and functions as its inner nodes, each as often and in the same name space.
Only a `-` where an operand is expected has become the negation.  This holds of every list of
tokens that is read, well-formed or not.
-/

namespace Reckoner

/-! ## Trees and tokens -/

namespace Expr

mutual

/-- The numbers and variables of an expression, from left to right. -/
def leaves : Expr → List Expr
  | .number text => [.number text]
  | .variable name => [.variable name]
  | .binary _ _ left right => left.leaves ++ right.leaves
  | .unary _ _ _ operand => operand.leaves
  | .call _ _ arguments => leavesAll arguments

/-- The numbers and variables of expressions, from left to right. -/
def leavesAll : List Expr → List Expr
  | [] => []
  | first :: rest => first.leaves ++ leavesAll rest

end

mutual

/-- The operators and functions of an expression, each with its name space. -/
def symbols : Expr → List (Symbol × String)
  | .number _ | .variable _ => []
  | .binary mode operator left right =>
      (.operator mode, operator) :: (left.symbols ++ right.symbols)
  | .unary mode operator _ operand => (.operator mode, operator) :: operand.symbols
  | .call mode name arguments => (.function mode, name) :: symbolsAll arguments

/-- The operators and functions of expressions. -/
def symbolsAll : List Expr → List (Symbol × String)
  | [] => []
  | first :: rest => first.symbols ++ symbolsAll rest

end

end Expr

namespace Token

/-- The leaf that a number or a variable becomes. -/
def leaf? (token : Token) : Option Expr :=
  match token.kind with
  | .number => some (.number token.lexeme)
  | .variable => some (.variable token.lexeme)
  | _ => none

/-- The name space and the name of an operator or a function. -/
def symbol? (token : Token) : Option (Symbol × String) :=
  match token.kind with
  | .operator mode => some (.operator mode, token.lexeme)
  | .function mode => some (.function mode, token.lexeme)
  | _ => none

theorem leaf?_eq_none_of_isFunction
    {token : Token}
    (function : token.kind.isFunction = true) :
    token.leaf? = none := by
  unfold TokenKind.isFunction at function
  unfold leaf?
  cases kind : token.kind <;> simp_all

/-- Whatever is neither a leaf nor a symbol does not become a node. -/
theorem symbol?_eq_none_of_not_isContent
    {token : Token}
    (blank : token.isContent = false) :
    token.symbol? = none := by
  unfold isContent at blank
  unfold symbol?
  cases kind : token.kind <;> simp_all

end Token

open Token

namespace Expr

mutual

/-- A postorder meets the leaves in order. -/
theorem filterMap_leaf?_postorder : ∀ tree : Expr,
    tree.postorder.filterMap leaf? = tree.leaves
  | .number _ => rfl
  | .variable _ => rfl
  | .binary mode operator left right => by
      simp [postorder, leaves, leaf?, filterMap_leaf?_postorder left,
        filterMap_leaf?_postorder right]
  | .unary mode operator fixity operand => by
      simp [postorder, leaves, leaf?, filterMap_leaf?_postorder operand]
  | .call mode name arguments => by
      simp [postorder, leaves, leaf?, List.filterMap_cons, functionEnd,
        filterMap_leaf?_postorderAll arguments]

theorem filterMap_leaf?_postorderAll : ∀ trees : List Expr,
    (postorderAll trees).filterMap leaf? = leavesAll trees
  | [] => rfl
  | first :: rest => by
      simp [postorderAll, leavesAll, filterMap_leaf?_postorder first,
        filterMap_leaf?_postorderAll rest]

end

mutual

/-- A postorder has the symbols of the tree. -/
theorem perm_symbol?_postorder : ∀ tree : Expr,
    (tree.postorder.filterMap symbol?).Perm tree.symbols
  | .number _ => .refl _
  | .variable _ => .refl _
  | .binary mode operator left right => by
      have operands := (perm_symbol?_postorder left).append (perm_symbol?_postorder right)
      have last : (postorder (.binary mode operator left right)).filterMap symbol? =
          (left.postorder.filterMap symbol? ++ right.postorder.filterMap symbol?) ++
            [(.operator mode, operator)] := by
        simp [postorder, symbol?]
      rw [last]
      exact List.perm_append_comm.trans (operands.cons _)
  | .unary mode operator fixity operand => by
      have last : (postorder (.unary mode operator fixity operand)).filterMap symbol? =
          operand.postorder.filterMap symbol? ++ [(.operator mode, operator)] := by
        simp [postorder, symbol?]
      rw [last]
      exact List.perm_append_comm.trans ((perm_symbol?_postorder operand).cons _)
  | .call mode name arguments => by
      have last : (postorder (.call mode name arguments)).filterMap symbol? =
          (postorderAll arguments).filterMap symbol? ++ [(.function mode, name)] := by
        simp [postorder, symbol?, List.filterMap_cons, functionEnd]
      rw [last]
      exact List.perm_append_comm.trans ((perm_symbol?_postorderAll arguments).cons _)

theorem perm_symbol?_postorderAll : ∀ trees : List Expr,
    ((postorderAll trees).filterMap symbol?).Perm (symbolsAll trees)
  | [] => .refl _
  | first :: rest => by
      rw [postorderAll, List.filterMap_append, symbolsAll]
      exact (perm_symbol?_postorder first).append (perm_symbol?_postorderAll rest)

end

end Expr

namespace Precedences

variable {precedences : Precedences}

/-- The leaves keep their place, so that the others can be left out. -/
theorem filterMap_leaf?_staysPut (tokens : List Token) :
    (tokens.filter precedences.staysPut).filterMap leaf? = tokens.filterMap leaf? := by
  have moves (token : Token) (away : precedences.staysPut token = false) : token.leaf? = none := by
    unfold staysPut at away
    unfold leaf?
    cases kind : token.kind <;> simp_all
  induction tokens with
  | nil => rfl
  | cons token rest hypothesis =>
      cases stays : precedences.staysPut token with
      | true => simp [List.filterMap_cons, stays, hypothesis]
      | false => simp [stays, hypothesis, moves token stays]

/-- Functions that stand at their marks are no leaves. -/
theorem filterMap_leaf?_backbone
    {pending : List Token}
    (functions : ∀ token ∈ pending, token.kind.isFunction = true)
    (tokens : List Token) :
    (precedences.backbone pending tokens).filterMap leaf? = tokens.filterMap leaf? := by
  induction tokens generalizing pending with
  | nil => rfl
  | cons token rest hypothesis =>
      cases function : token.kind.isFunction with
      | true =>
          have more : ∀ other ∈ token :: pending, other.kind.isFunction = true :=
            List.forall_mem_cons.2 ⟨function, functions⟩
          rw [backbone_function function, hypothesis more, List.filterMap_cons,
            leaf?_eq_none_of_isFunction function]
      | false =>
          by_cases marked : token.kind = .functionEnd
          · have none : token.leaf? = none := by simp [leaf?, marked]
            cases pending with
            | nil => simp [backbone, marked, none, hypothesis]
            | cons first others =>
                obtain ⟨isFunction, later⟩ := List.forall_mem_cons.1 functions
                rw [backbone_functionEnd marked, List.filterMap_cons, List.filterMap_cons,
                  leaf?_eq_none_of_isFunction isFunction, none]
                exact hypothesis later
          · rw [backbone_cons function marked, List.filterMap_append, filterMap_leaf?_staysPut,
              hypothesis functions, ← List.filterMap_append, List.singleton_append]

/-- A sign is no leaf, before and after it is read as one. -/
theorem filterMap_leaf?_readAll (previous : Option Token) (tokens : List Token) :
    (precedences.readAll previous tokens).filterMap leaf? = tokens.filterMap leaf? := by
  have same (previous : Option Token) (token : Token) :
      (precedences.readAfter previous token).leaf? = token.leaf? := by
    rcases precedences.readAfter_eq_or previous token with same | ⟨_, operator, sign⟩
    · rw [same]
    · rw [sign]
      unfold TokenKind.isOperator at operator
      unfold leaf?
      cases kind : token.kind <;> simp_all
  induction tokens generalizing previous with
  | nil => rfl
  | cons token rest hypothesis =>
      rw [readAll, List.filterMap_cons, List.filterMap_cons, same, hypothesis]

theorem filterMap_symbol?_isContent (tokens : List Token) :
    (tokens.filter isContent).filterMap symbol? = tokens.filterMap symbol? := by
  induction tokens with
  | nil => rfl
  | cons token rest hypothesis =>
      cases content : token.isContent with
      | true => simp [List.filterMap_cons, content, hypothesis]
      | false => simp [content, hypothesis, symbol?_eq_none_of_not_isContent content]

/-! ## Signs -/

/-- An operand is due behind a token, as it has been read: at the beginning, behind an opening
parenthesis or a comma, and behind an operator unless this follows its operand. -/
def IsDue (precedences : Precedences) : (previous : Option Token) → Prop
  | none => True
  | some token =>
      token.kind = .openParen ∨ token.kind = .comma ∨
        (token.kind.isOperator = true ∧ precedences.fixity? token.lexeme ≠ some .after)

/-- How tokens are read, the first of them behind `previous`: an operator `-` is the negation
where an operand is due, and everything else is itself. -/
inductive Reads (precedences : Precedences) : Option Token → List Token → List Token → Prop
  | nil (previous : Option Token) : Reads precedences previous [] []
  | sign
      {previous : Option Token}
      {rest read : List Token}
      (mode : Mode)
      (due : precedences.IsDue previous)
      (reads : Reads precedences (some ⟨.operator .value, negation⟩) rest read) :
      Reads precedences previous (⟨.operator mode, "-"⟩ :: rest)
        (⟨.operator .value, negation⟩ :: read)
  | itself
      {previous : Option Token}
      {token : Token}
      {rest read : List Token}
      (unsigned : token.kind.isOperator = true → token.lexeme = "-" → ¬precedences.IsDue previous)
      (reads : Reads precedences (some token) rest read) :
      Reads precedences previous (token :: rest) (token :: read)

/-- An operand is expected where one is due. -/
theorem expectsOperand_iff_isDue (previous : Option Token) :
    precedences.expectsOperand previous = true ↔ precedences.IsDue previous := by
  cases previous with
  | none => simp [expectsOperand, IsDue]
  | some token =>
      obtain ⟨kind, lexeme⟩ := token
      cases kind with
      | operator mode =>
          cases known : precedences.specs.find? lexeme <;>
            simp [expectsOperand, IsDue, fixity?, TokenKind.isOperator, known]
      | _ => simp [expectsOperand, IsDue, TokenKind.isOperator]

theorem reads_readAll (previous : Option Token) (tokens : List Token) :
    precedences.Reads previous tokens (precedences.readAll previous tokens) := by
  induction tokens generalizing previous with
  | nil => exact .nil previous
  | cons token rest hypothesis =>
      have due := precedences.expectsOperand_iff_isDue previous
      obtain ⟨kind, lexeme⟩ := token
      cases operator : kind.isOperator with
      | false =>
          have same : precedences.readAfter previous ⟨kind, lexeme⟩ = ⟨kind, lexeme⟩ := by
            simp [readAfter, operator]
          rw [readAll, same]
          exact .itself (by simp [operator]) (hypothesis _)
      | true =>
          by_cases sign : lexeme = "-" ∧ precedences.expectsOperand previous = true
          · have negated : precedences.readAfter previous ⟨kind, lexeme⟩ =
                ⟨.operator .value, negation⟩ := by
              simp [readAfter, operator, resolve, sign]
            obtain ⟨mode, rfl⟩ : ∃ mode, kind = .operator mode := by
              unfold TokenKind.isOperator at operator
              split at operator
              next mode => exact ⟨mode, rfl⟩
              next => cases operator
            obtain ⟨rfl, expected⟩ := sign
            rw [readAll, negated]
            exact .sign mode (due.1 expected) (hypothesis _)
          · have same : precedences.readAfter previous ⟨kind, lexeme⟩ = ⟨kind, lexeme⟩ := by
              simp [readAfter, resolve, sign]
            rw [readAll, same]
            refine .itself (fun _ minus isDue => ?_) (hypothesis _)
            exact sign ⟨minus, due.2 isDue⟩

/-! ## Reading -/

/-- A parsed tree has the leaves of its tokens, in order. -/
theorem leaves_eq_of_parse
    {tokens : List Token}
    {tree : Expr}
    (parses : precedences.parse tokens = .ok tree) :
    tree.leaves = tokens.filterMap leaf? := by
  obtain ⟨_, order, _⟩ := keeps_of_parse parses
  have ordered : tree.postorder.reverse.filterMap leaf? =
      ((precedences.readAll none tokens).filter precedences.staysPut).reverse.filterMap leaf? := by
    rw [← order, filterMap_leaf?_backbone (by simp)]
  rw [List.filterMap_reverse, List.filterMap_reverse, filterMap_leaf?_staysPut,
    filterMap_leaf?_readAll] at ordered
  rw [← Expr.filterMap_leaf?_postorder]
  exact List.reverse_injective ordered

/-- The numbers and variables of tokens that are read as a tree are its leaves from left to
right, none lost, doubled or moved; and the operators and functions of the tree are those of the
tokens, each `-` where an operand is expected being read as the negation. -/
theorem leaves_of_parse
    {tokens : List Token}
    {tree : Expr}
    (parses : precedences.parse tokens = .ok tree) :
    tree.leaves = tokens.filterMap leaf? ∧
      ∃ read, precedences.Reads none tokens read ∧
        tree.symbols.Perm (read.filterMap symbol?) := by
  obtain ⟨_, _, content⟩ := keeps_of_parse parses
  refine ⟨leaves_eq_of_parse parses, _, precedences.reads_readAll none tokens, ?_⟩
  have symbols := content.filterMap symbol?
  rw [filterMap_symbol?_isContent, filterMap_symbol?_isContent] at symbols
  exact (Expr.perm_symbol?_postorder tree).symm.trans symbols

/-- Two operands in front of a sum and a sign that follows it are read, and nothing gets lost. -/
theorem leaves_of_parse_trailing_sign :
    sums.parse [⟨.number, "1"⟩, ⟨.variable, "x"⟩, ⟨.operator .value, "+"⟩,
        ⟨.operator .value, "-"⟩] =
      .ok (.binary .value "+" (.number "1") (.unary .value negation .before (.variable "x"))) ∧
    (Expr.binary .value "+" (.number "1")
        (.unary .value negation .before (.variable "x"))).leaves =
      [.number "1", .variable "x"] ∧
    ∃ read, sums.Reads none [⟨.number, "1"⟩, ⟨.variable, "x"⟩, ⟨.operator .value, "+"⟩,
        ⟨.operator .value, "-"⟩] read ∧
      (Expr.binary .value "+" (.number "1")
        (.unary .value negation .before (.variable "x"))).symbols.Perm
          (read.filterMap symbol?) := by
  have parses : sums.parse [⟨.number, "1"⟩, ⟨.variable, "x"⟩, ⟨.operator .value, "+"⟩,
      ⟨.operator .value, "-"⟩] =
      .ok (.binary .value "+" (.number "1") (.unary .value negation .before (.variable "x"))) :=
    parse_eq_ok_iff.2 ⟨_, rfl, ⟨by decide, trivial, by decide, by decide, trivial⟩, rfl⟩
  exact ⟨parses, leaves_of_parse parses⟩

end Precedences
end Reckoner
