import Reckoner.Proofs.Expr.Climbing
import Reckoner.Proofs.Expr.Writing

/-!
# What is read is an expression, rearranged

Reading keeps no account of whether an operand or an operator is due: `1 2 +` is read as `1+2`.
What it does account for are the parentheses and the number of operands.  So tokens that are read
are the tokens of a well-formed expression, up to the places of parentheses, commas and of the
operators that stand in front of their operand or between two.  All other tokens are refused as
something that cannot be parsed.
-/

namespace Reckoner

open Token

namespace Precedences

variable {precedences : Precedences}

/-! ## Well-formed expressions -/

mutual

/-- A number, a variable or an expression in parentheses. -/
inductive FormsAtom (precedences : Precedences) : List Token → Prop
  | number (text : String) : FormsAtom precedences [⟨.number, text⟩]
  | named (name : String) : FormsAtom precedences [⟨.variable, name⟩]
  | group
      {tokens : List Token}
      (opening closing : String)
      (inner : FormsExpression precedences tokens) :
      FormsAtom precedences (⟨.openParen, opening⟩ :: (tokens ++ [⟨.closeParen, closing⟩]))

/-- What stands between two operators: an atom or a call with the operators that follow it, a
leading operator with its operand, or a function with an operand in place of its arguments. -/
inductive FormsOperand (precedences : Precedences) : List Token → Prop
  | trailed
      {tokens trailing : List Token}
      (atom : FormsAtom precedences tokens)
      (operators : IsTrailing precedences trailing) :
      FormsOperand precedences (tokens ++ trailing)
  | led
      {mode : Mode}
      {operator : String}
      {tokens : List Token}
      (leading : precedences.IsLeading operator)
      (operand : FormsOperand precedences tokens) :
      FormsOperand precedences (⟨.operator mode, operator⟩ :: tokens)
  | emptyCall
      {trailing : List Token}
      (mode : Mode)
      (name opening closing : String)
      (operators : IsTrailing precedences trailing) :
      FormsOperand precedences
        (⟨.function mode, name⟩ :: ⟨.openParen, opening⟩ :: ⟨.closeParen, closing⟩ :: trailing)
  | call
      {tokens trailing : List Token}
      (mode : Mode)
      (name opening closing : String)
      (arguments : FormsArguments precedences tokens)
      (operators : IsTrailing precedences trailing) :
      FormsOperand precedences
        (⟨.function mode, name⟩ :: ⟨.openParen, opening⟩ ::
          (tokens ++ ⟨.closeParen, closing⟩ :: trailing))
  | applied
      {tokens : List Token}
      (mode : Mode)
      (name : String)
      (operand : FormsOperand precedences tokens) :
      FormsOperand precedences (⟨.function mode, name⟩ :: tokens)

/-- Expressions separated by commas. -/
inductive FormsArguments (precedences : Precedences) : List Token → Prop
  | last
      {tokens : List Token}
      (argument : FormsExpression precedences tokens) :
      FormsArguments precedences tokens
  | more
      {tokens rest : List Token}
      (separator : String)
      (argument : FormsExpression precedences tokens)
      (others : FormsArguments precedences rest) :
      FormsArguments precedences (tokens ++ ⟨.comma, separator⟩ :: rest)

/-- Operands with operators between them. -/
inductive FormsExpression (precedences : Precedences) : List Token → Prop
  | last
      {tokens : List Token}
      (operand : FormsOperand precedences tokens) :
      FormsExpression precedences tokens
  | more
      {mode : Mode}
      {operator : String}
      {tokens rest : List Token}
      (operand : FormsOperand precedences tokens)
      (between : precedences.fixity? operator = some .between)
      (others : FormsExpression precedences rest) :
      FormsExpression precedences (tokens ++ ⟨.operator mode, operator⟩ :: rest)

end

/-! ## Neighbours -/

/-- Whether an operand may start with a token. -/
def startsOperand (precedences : Precedences) (token : Token) : Bool :=
  match token.kind with
  | .number | .variable | .openParen | .function _ => true
  | .operator _ => token.lexeme == "-" || precedences.fixity? token.lexeme == some .before
  | _ => false

/-- Whether an operand may end with a token. -/
def endsOperand (precedences : Precedences) (token : Token) : Bool :=
  match token.kind with
  | .number | .variable | .closeParen => true
  | .operator _ => precedences.fixity? token.lexeme == some .after
  | _ => false

/-- Whether an operand may have a token right in front of it. -/
def precedesOperand (precedences : Precedences) (token : Token) : Bool :=
  match token.kind with
  | .openParen | .comma | .function _ => true
  | .operator _ => token.lexeme == "-" || precedences.fixity? token.lexeme != some .after
  | _ => false

/-- Whether an operand may have a token right behind it. -/
def followsOperand (precedences : Precedences) (token : Token) : Bool :=
  match token.kind with
  | .closeParen | .comma => true
  | .operator _ => precedences.fixity? token.lexeme != some .before
  | _ => false

/-- Two tokens that may stand next to each other. -/
def MayMeet (precedences : Precedences) (left right : Token) : Prop :=
  (precedences.precedesOperand left = true ∧ precedences.startsOperand right = true) ∨
    (precedences.endsOperand left = true ∧ precedences.followsOperand right = true) ∨
    (left.kind = .openParen ∧ right.kind = .closeParen)

instance (left right : Token) : Decidable (precedences.MayMeet left right) :=
  inferInstanceAs (Decidable (_ ∨ _))

/-- Tokens that look like an expression when only neighbours and both ends are compared. -/
structure Alternates (precedences : Precedences) (tokens : List Token) : Prop where
  chain : tokens.IsChain precedences.MayMeet
  starts : tokens.head?.any precedences.startsOperand = true
  ends : tokens.getLast?.any precedences.endsOperand = true

/-- A single operand alternates. -/
theorem Alternates.single
    {token : Token}
    (starts : precedences.startsOperand token = true)
    (ends : precedences.endsOperand token = true) :
    precedences.Alternates [token] :=
  ⟨.singleton token, starts, ends⟩

theorem Alternates.cons
    {token : Token}
    {tokens : List Token}
    (alternates : precedences.Alternates tokens)
    (starts : precedences.startsOperand token = true)
    (precedes : precedences.precedesOperand token = true) :
    precedences.Alternates (token :: tokens) := by
  obtain ⟨chain, startsRest, ends⟩ := alternates
  cases tokens with
  | nil => cases startsRest
  | cons next rest =>
      have meet : precedences.MayMeet token next := Or.inl ⟨precedes, startsRest⟩
      exact ⟨.cons_cons meet chain, starts, by rwa [List.getLast?_cons_cons]⟩

theorem Alternates.isChain_append
    {token : Token}
    {tokens rest : List Token}
    (alternates : precedences.Alternates tokens)
    (follows : precedences.followsOperand token = true)
    (chain : (token :: rest).IsChain precedences.MayMeet) :
    (tokens ++ token :: rest).IsChain precedences.MayMeet := by
  refine alternates.chain.append chain ?_
  intro last isLast next isNext
  obtain rfl : token = next := by simpa using isNext
  have ends := alternates.ends
  rw [Option.mem_def.1 isLast] at ends
  exact Or.inr (Or.inl ⟨ends, follows⟩)

theorem Alternates.starts_append
    {tokens : List Token}
    (alternates : precedences.Alternates tokens)
    (rest : List Token) :
    (tokens ++ rest).head?.any precedences.startsOperand = true := by
  have starts := alternates.starts
  cases tokens with
  | nil => cases starts
  | cons first others => exact starts

theorem Alternates.concat
    {token : Token}
    {tokens : List Token}
    (alternates : precedences.Alternates tokens)
    (follows : precedences.followsOperand token = true)
    (ends : precedences.endsOperand token = true) :
    precedences.Alternates (tokens ++ [token]) where
  chain := alternates.isChain_append follows (.singleton token)
  starts := alternates.starts_append [token]
  ends := by simpa using ends

/-- Operands with an operator between them alternate. -/
theorem Alternates.join
    {token : Token}
    {tokens rest : List Token}
    (left : precedences.Alternates tokens)
    (follows : precedences.followsOperand token = true)
    (precedes : precedences.precedesOperand token = true)
    (right : precedences.Alternates rest) :
    precedences.Alternates (tokens ++ token :: rest) := by
  obtain ⟨chain, starts, ends⟩ := right
  cases rest with
  | nil => cases starts
  | cons next others =>
      have meet : precedences.MayMeet token next := Or.inl ⟨precedes, starts⟩
      refine ⟨left.isChain_append follows (.cons_cons meet chain), left.starts_append _, ?_⟩
      rwa [List.getLast?_append_of_ne_nil _ (by simp), List.getLast?_cons_cons]

/-- What alternates still does in parentheses. -/
theorem Alternates.enclose
    {tokens : List Token}
    (alternates : precedences.Alternates tokens)
    (opening closing : String) :
    precedences.Alternates (⟨.openParen, opening⟩ :: (tokens ++ [⟨.closeParen, closing⟩])) :=
  (alternates.concat rfl rfl).cons rfl rfl

/-- What alternates still does with trailing operators. -/
theorem Alternates.trailed
    {tokens trailing : List Token}
    (alternates : precedences.Alternates tokens)
    (operators : precedences.IsTrailing trailing) :
    precedences.Alternates (tokens ++ trailing) := by
  induction operators generalizing tokens with
  | nil => rwa [List.append_nil]
  | cons after _ hypothesis =>
      rw [← List.singleton_append, ← List.append_assoc]
      refine hypothesis (alternates.concat ?_ ?_)
      · simp [followsOperand, after]
      · simp [endsOperand, after]

mutual

theorem FormsAtom.alternates {tokens : List Token} :
    precedences.FormsAtom tokens → precedences.Alternates tokens
  | .number _ => .single rfl rfl
  | .named _ => .single rfl rfl
  | .group opening closing inner => inner.alternates.enclose opening closing

/-- The tokens of an operand alternate. -/
theorem FormsOperand.alternates {tokens : List Token} :
    precedences.FormsOperand tokens → precedences.Alternates tokens
  | .trailed atom operators => atom.alternates.trailed operators
  | .led leading operand => by
      refine operand.alternates.cons ?_ ?_
      · rcases leading with sign | before
        · simp [startsOperand, sign]
        · simp [startsOperand, before]
      · rcases leading with sign | before
        · simp [precedesOperand, sign]
        · simp [precedesOperand, before]
  | .emptyCall mode name opening closing operators => by
      have empty : List.IsChain precedences.MayMeet
          [⟨.function mode, name⟩, ⟨.openParen, opening⟩, ⟨.closeParen, closing⟩] :=
        .cons_cons (Or.inl ⟨rfl, rfl⟩) (.cons_cons (Or.inr (Or.inr ⟨rfl, rfl⟩)) (.singleton _))
      exact Alternates.trailed ⟨empty, rfl, rfl⟩ operators
  | .call mode name opening closing arguments operators => by
      have enclosed := arguments.alternates.enclose opening closing
      have call : precedences.Alternates (⟨.function mode, name⟩ :: _) := enclosed.cons rfl rfl
      simpa using call.trailed operators
  | .applied mode name operand => operand.alternates.cons rfl rfl

theorem FormsArguments.alternates {tokens : List Token} :
    precedences.FormsArguments tokens → precedences.Alternates tokens
  | .last argument => argument.alternates
  | .more separator argument others => argument.alternates.join rfl rfl others.alternates

/-- The tokens of an expression alternate. -/
theorem FormsExpression.alternates {tokens : List Token} :
    precedences.FormsExpression tokens → precedences.Alternates tokens
  | .last operand => operand.alternates
  | .more operand between others => by
      refine operand.alternates.join ?_ ?_ others.alternates
      · simp [followsOperand, between]
      · simp [precedesOperand, between]

end

/-! ## Trees -/

@[simp] theorem staysPut_opening : precedences.staysPut opening = false := rfl

@[simp] theorem staysPut_closing : precedences.staysPut closing = false := rfl

@[simp] theorem staysPut_separator : precedences.staysPut separator = false := rfl

mutual

/-- A tree, written in order, is an operand. -/
theorem formsOperand_inorder : ∀ tree : Expr,
    tree.Fits precedences → precedences.FormsOperand tree.inorder
  | .number text, _ => .trailed (.number text) .nil
  | .variable name, _ => .trailed (.named name) .nil
  | .binary mode operator left right, ⟨between, fitsLeft, fitsRight⟩ => by
      have inner : precedences.FormsExpression
          (left.inorder ++ ⟨.operator mode, operator⟩ :: right.inorder) :=
        .more (formsOperand_inorder left fitsLeft) between
          (.last (formsOperand_inorder right fitsRight))
      have group := FormsOperand.trailed (.group "(" ")" inner) .nil
      simpa [Expr.inorder, Expr.write, opening, closing] using group
  | .unary mode operator fixity operand, ⟨found, beside, fits⟩ => by
      have group : precedences.FormsAtom (opening :: (operand.inorder ++ [closing])) :=
        .group "(" ")" (.last (formsOperand_inorder operand fits))
      cases fixity with
      | between => exact absurd rfl beside
      | before =>
          have led : precedences.FormsOperand
              (⟨.operator mode, operator⟩ :: (opening :: (operand.inorder ++ [closing]) ++ [])) :=
            .led (Or.inr found) (.trailed group .nil)
          simpa [Expr.inorder, Expr.write] using led
      | after =>
          have trailed : precedences.FormsOperand
              (opening :: (operand.inorder ++ [closing]) ++ [⟨.operator mode, operator⟩]) :=
            .trailed group (.cons found .nil)
          simpa [Expr.inorder, Expr.write] using trailed
  | .call mode name arguments, fits => by
      have separated := formsArguments_inorder arguments
      cases arguments with
      | nil => exact .emptyCall mode name "(" ")" .nil
      | cons first rest => exact .call mode name "(" ")" (separated (by simp) fits) .nil

theorem formsArguments_inorder : ∀ trees : List Expr, trees ≠ [] →
    Expr.FitsAll precedences trees →
      precedences.FormsArguments (Expr.writeAll (· = .before) trees)
  | [], nonempty, _ => absurd rfl nonempty
  | [last], _, ⟨fits, _⟩ => .last (.last (formsOperand_inorder last fits))
  | first :: next :: rest, _, ⟨fits, others⟩ =>
      .more "," (.last (formsOperand_inorder first fits))
        (formsArguments_inorder (next :: rest) (by simp) others)

end

mutual

/-- The tokens of a tree that keep their place come in postfix order as they are written. -/
theorem backbone_postorder (pending rest : List Token) : ∀ tree : Expr,
    tree.Fits precedences →
      precedences.backbone pending (tree.postorder.reverse ++ rest) =
        (tree.inorder.filter precedences.staysPut).reverse ++ precedences.backbone pending rest
  | .number text, _ => backbone_cons rfl (by simp) pending rest
  | .variable name, _ => backbone_cons rfl (by simp) pending rest
  | .binary mode operator left right, ⟨between, fitsLeft, fitsRight⟩ => by
      have moves : precedences.staysPut ⟨.operator mode, operator⟩ = false := by
        simp [staysPut, between]
      simp only [Expr.postorder, List.reverse_append, List.reverse_singleton,
        List.cons_append, List.nil_append, List.append_assoc]
      rw [backbone_cons rfl (by simp), backbone_postorder _ _ right fitsRight,
        backbone_postorder _ _ left fitsLeft]
      simp [Expr.inorder, Expr.write, moves]
  | .unary mode operator fixity operand, ⟨found, beside, fits⟩ => by
      simp only [Expr.postorder, List.reverse_append, List.reverse_singleton,
        List.cons_append, List.nil_append]
      rw [backbone_cons rfl (by simp), backbone_postorder _ _ operand fits]
      cases fixity with
      | between => exact absurd rfl beside
      | before =>
          have moves : precedences.staysPut ⟨.operator mode, operator⟩ = false := by
            simp [staysPut, found]
          simp [Expr.inorder, Expr.write, moves]
      | after =>
          have stays : precedences.staysPut ⟨.operator mode, operator⟩ = true := by
            simp [staysPut, found]
          simp [Expr.inorder, Expr.write, stays]
  | .call mode name arguments, fits => by
      have stays : precedences.staysPut ⟨.function mode, name⟩ = true := rfl
      simp only [Expr.postorder, List.reverse_cons, List.reverse_append, List.reverse_nil,
        List.cons_append, List.nil_append, List.append_assoc]
      rw [backbone_function rfl, backbone_postorderAll _ _ arguments fits,
        backbone_functionEnd rfl]
      simp [Expr.inorder, Expr.write, stays]

/-- The operators that stay put are met in the order they are written in. -/
theorem backbone_postorderAll (pending rest : List Token) : ∀ trees : List Expr,
    Expr.FitsAll precedences trees →
      precedences.backbone pending ((Expr.postorderAll trees).reverse ++ rest) =
        ((Expr.writeAll (· = .before) trees).filter precedences.staysPut).reverse ++
          precedences.backbone pending rest
  | [], _ => rfl
  | [last], ⟨fits, _⟩ => by
      rw [Expr.postorderAll, Expr.postorderAll, List.append_nil]
      exact backbone_postorder pending rest last fits
  | first :: next :: others, ⟨fits, fitsOthers⟩ => by
      rw [Expr.postorderAll, List.reverse_append, List.append_assoc,
        backbone_postorderAll _ _ (next :: others) fitsOthers,
        backbone_postorder _ _ first fits]
      simp [Expr.inorder, Expr.writeAll]

end

/-! ## Failures -/

/-- Whatever fails is refused as something that cannot be parsed. -/
def OnlyRefuses {α : Type} (result : Except Failure α) : Prop :=
  ∀ failure, result = .error failure → failure.category = .parse

theorem onlyRefuses_spec (operator : String) : OnlyRefuses (precedences.spec operator) := by
  unfold OnlyRefuses spec
  grind [Failure.category]

theorem onlyRefuses_placeTighter (arriving : OperatorSpec) (placed waiting : List Token) :
    OnlyRefuses (precedences.placeTighter arriving placed waiting) := by
  have known (operator : String) := precedences.onlyRefuses_spec operator
  unfold OnlyRefuses at *
  fun_induction placeTighter precedences arriving placed waiting <;> grind

theorem onlyRefuses_placeInside (placed waiting : List Token) :
    OnlyRefuses (placeInside placed waiting) := by
  unfold OnlyRefuses
  fun_induction placeInside placed waiting <;> grind [Failure.category]

theorem onlyRefuses_placeRest (placed waiting : List Token) :
    OnlyRefuses (placeRest placed waiting) := by
  unfold OnlyRefuses
  fun_induction placeRest placed waiting <;> grind [Failure.category]

theorem onlyRefuses_shift (state : Reordering) (token : Token) :
    OnlyRefuses (precedences.shift state token) := by
  have known (operator : String) := precedences.onlyRefuses_spec operator
  have tighter := precedences.onlyRefuses_placeTighter
  have inside := onlyRefuses_placeInside
  unfold OnlyRefuses at *
  fun_cases shift precedences state token <;> grind

/-- Shifting fails with a refusal, never otherwise. -/
theorem onlyRefuses_shiftAll (state : Reordering) (tokens : List Token) :
    OnlyRefuses (precedences.shiftAll state tokens) := by
  have step := precedences.onlyRefuses_shift
  unfold OnlyRefuses at *
  fun_induction shiftAll precedences state tokens <;> grind

theorem onlyRefuses_reversePostfix (tokens : List Token) :
    OnlyRefuses (precedences.reversePostfix tokens) := by
  have all := precedences.onlyRefuses_shiftAll
  have rest := onlyRefuses_placeRest
  unfold OnlyRefuses at *
  fun_cases reversePostfix precedences tokens <;> grind

theorem onlyRefuses_construct_all :
    (∀ tokens, OnlyRefuses (precedences.construct tokens)) ∧
      (∀ name later tokens, OnlyRefuses (precedences.constructArguments name later tokens)) ∧
      ∀ operator tokens, OnlyRefuses (precedences.constructOperand operator tokens) := by
  have known (operator : String) := precedences.onlyRefuses_spec operator
  unfold OnlyRefuses at *
  apply construct.mutual_induct precedences
    (fun tokens => ∀ failure, precedences.construct tokens = .error failure →
      failure.category = .parse)
    (fun name later tokens => ∀ failure,
      precedences.constructArguments name later tokens = .error failure →
        failure.category = .parse)
    (fun operator tokens => ∀ failure,
      precedences.constructOperand operator tokens = .error failure → failure.category = .parse)
  all_goals
    intros
    grind [construct, constructArguments, constructOperand, Failure.category]

/-- Parsing fails with a refusal, never otherwise. -/
theorem onlyRefuses_parse (tokens : List Token) : OnlyRefuses (precedences.parse tokens) := by
  have reorders := precedences.onlyRefuses_reversePostfix
  have constructs := precedences.onlyRefuses_construct_all.1
  unfold OnlyRefuses at *
  unfold parse buildReversed
  grind [Failure.category]

/-! ## Everything that is read -/

/-- Tokens are either read as a tree or refused as something that cannot be parsed.  If they are
read, then they are nested properly, and the tokens of the tree in the order in which they are read
are a well-formed expression that has the same numbers, variables, functions and operators, those
that keep their place in the same order. -/
theorem parse_rearranges (precedences : Precedences) (tokens : List Token) :
    (∃ tree, precedences.parse tokens = .ok tree ∧ IsNested tokens ∧
        precedences.FormsExpression tree.inorder ∧
        (precedences.readAll none tokens).filter precedences.staysPut =
          tree.inorder.filter precedences.staysPut ∧
        ((precedences.readAll none tokens).filter isContent).Perm
          (tree.inorder.filter isContent)) ∨
      ∃ failure, precedences.parse tokens = .error failure ∧ failure.category = .parse := by
  cases parses : precedences.parse tokens with
  | error failure => exact Or.inr ⟨failure, rfl, onlyRefuses_parse tokens failure parses⟩
  | ok tree =>
      obtain ⟨_, _, fits, _⟩ := parse_eq_ok_iff.1 parses
      obtain ⟨nested, order, content⟩ := keeps_of_parse parses
      have ordered := backbone_postorder [] [] tree fits
      rw [List.append_nil, order] at ordered
      refine Or.inl ⟨tree, rfl, nested, .last (formsOperand_inorder tree fits), ?_, ?_⟩
      · exact List.reverse_injective (by simpa [backbone] using ordered)
      · exact content.symm.trans (Expr.perm_write tree)

/-- A table with a sum, a factorial and a sign. -/
def sums : Precedences :=
  ⟨((Table.empty.insert "+" (.binary .left 1)).insert "!" (.trailing 3)).insert negation
    (.leading 2)⟩

/-- An operator behind both of its operands or in front of them, an operand behind an empty group
and an argument that is missing behind a comma are read without complaint. -/
theorem parse_lenient :
    sums.parse [⟨.number, "1"⟩, ⟨.number, "2"⟩, ⟨.operator .value, "+"⟩] =
        .ok (.binary .value "+" (.number "1") (.number "2")) ∧
      ¬sums.FormsExpression [⟨.number, "1"⟩, ⟨.number, "2"⟩, ⟨.operator .value, "+"⟩] ∧
      sums.parse [⟨.operator .value, "+"⟩, ⟨.number, "1"⟩, ⟨.number, "2"⟩] =
        .ok (.binary .value "+" (.number "1") (.number "2")) ∧
      ¬sums.FormsExpression [⟨.operator .value, "+"⟩, ⟨.number, "1"⟩, ⟨.number, "2"⟩] ∧
      sums.parse [opening, closing, ⟨.number, "1"⟩] = .ok (.number "1") ∧
      ¬sums.FormsExpression [opening, closing, ⟨.number, "1"⟩] ∧
      sums.parse [⟨.function .value, "f"⟩, opening, ⟨.number, "1"⟩, separator, closing] =
        .ok (.call .value "f" [.number "1"]) ∧
      ¬sums.FormsExpression
        [⟨.function .value, "f"⟩, opening, ⟨.number, "1"⟩, separator, closing] := by
  have plus : sums.fixity? "+" = some .between := by decide
  refine ⟨?_, ?_, ?_, ?_, ?_, ?_, ?_, ?_⟩
  · exact parse_eq_ok_iff.2 ⟨_, rfl, ⟨plus, trivial, trivial⟩, rfl⟩
  · intro forms
    exact absurd forms.alternates.chain (by decide)
  · exact parse_eq_ok_iff.2 ⟨_, rfl, ⟨plus, trivial, trivial⟩, rfl⟩
  · intro forms
    exact absurd forms.alternates.starts (by decide)
  · exact parse_eq_ok_iff.2 ⟨_, rfl, trivial, rfl⟩
  · intro forms
    exact absurd forms.alternates.chain (by decide)
  · exact parse_eq_ok_iff.2 ⟨_, rfl, ⟨trivial, trivial⟩, rfl⟩
  · intro forms
    exact absurd forms.alternates.chain (by decide)

end Precedences
end Reckoner
