import Reckoner.Proofs.Expr.Postorder

/-!
# Precedence climbing

The grammar of expressions as they are written, and a recursive descent over it.  An operator takes
its right operand with the precedence of the operator as the limit: the operand goes on over every
operator behind it that binds tighter than the limit, or as tightly and groups to the right.

The grammar leaves open where the operand of a leading operator ends.  The descent decides it, and
succeeds on everything that the grammar generates.
-/

namespace Reckoner
namespace Precedences

/-! ## The grammar -/

/-- Whether an operator may stand in front of its operand; a `-` there is a sign. -/
def IsLeading (precedences : Precedences) (operator : String) : Prop :=
  operator = "-" ∨ precedences.fixity? operator = some .before

/-- Operators that follow their operand. -/
inductive IsTrailing (precedences : Precedences) : List Token → Prop
  | nil : IsTrailing precedences []
  | cons
      {mode : Mode}
      {operator : String}
      {rest : List Token}
      (after : precedences.fixity? operator = some .after)
      (trailing : IsTrailing precedences rest) :
      IsTrailing precedences (⟨.operator mode, operator⟩ :: rest)

mutual

/-- What operators follow: a number, a variable or an expression in parentheses. -/
inductive IsAtom (precedences : Precedences) : List Token → Prop
  | number (text : String) : IsAtom precedences [⟨.number, text⟩]
  | named (name : String) : IsAtom precedences [⟨.variable, name⟩]
  | group
      {tokens : List Token}
      (opening closing : String)
      (inner : IsExpression precedences tokens) :
      IsAtom precedences (⟨.openParen, opening⟩ :: (tokens ++ [⟨.closeParen, closing⟩]))

/-- What stands between two operators: an atom with the operators that follow it, a leading operator
with an expression, or a call. -/
inductive IsOperand (precedences : Precedences) : List Token → Prop
  | trailed
      {tokens trailing : List Token}
      (atom : IsAtom precedences tokens)
      (operators : IsTrailing precedences trailing) :
      IsOperand precedences (tokens ++ trailing)
  | led
      {mode : Mode}
      {operator : String}
      {tokens : List Token}
      (leading : precedences.IsLeading operator)
      (operand : IsExpression precedences tokens) :
      IsOperand precedences (⟨.operator mode, operator⟩ :: tokens)
  | emptyCall
      (mode : Mode)
      (name opening closing : String) :
      IsOperand precedences
        [⟨.function mode, name⟩, ⟨.openParen, opening⟩, ⟨.closeParen, closing⟩]
  | call
      {tokens : List Token}
      (mode : Mode)
      (name opening closing : String)
      (arguments : IsArguments precedences tokens) :
      IsOperand precedences
        (⟨.function mode, name⟩ :: ⟨.openParen, opening⟩ :: (tokens ++ [⟨.closeParen, closing⟩]))

/-- Expressions separated by commas. -/
inductive IsArguments (precedences : Precedences) : List Token → Prop
  | last
      {tokens : List Token}
      (argument : IsExpression precedences tokens) :
      IsArguments precedences tokens
  | more
      {tokens rest : List Token}
      (separator : String)
      (argument : IsExpression precedences tokens)
      (others : IsArguments precedences rest) :
      IsArguments precedences (tokens ++ ⟨.comma, separator⟩ :: rest)

/-- Operands with operators between them. -/
inductive IsExpression (precedences : Precedences) : List Token → Prop
  | last
      {tokens : List Token}
      (operand : IsOperand precedences tokens) :
      IsExpression precedences tokens
  | more
      {mode : Mode}
      {operator : String}
      {tokens rest : List Token}
      (operand : IsOperand precedences tokens)
      (between : precedences.fixity? operator = some .between)
      (others : IsExpression precedences rest) :
      IsExpression precedences (tokens ++ ⟨.operator mode, operator⟩ :: rest)

end

/-! ## The descent -/

/-- Whether the right operand of an operator goes on over an arriving operator; `none` is the limit
of an operand that no operator waits for. -/
def Absorbs : (limit : Option Int) → (arriving : OperatorSpec) → Prop
  | none, _ => True
  | some limit, arriving =>
      limit < arriving.precedence ∨
        (limit = arriving.precedence ∧ arriving.associativity = .right)

instance : (limit : Option Int) → (arriving : OperatorSpec) → Decidable (Absorbs limit arriving)
  | none, _ => isTrue trivial
  | some _, _ => inferInstanceAs (Decidable (_ ∨ _))

/-- The operator that is meant by an operator in front of its operand. -/
def signed (mode : Mode) (operator : String) : Mode × String :=
  if operator = "-" then (.value, negation) else (mode, operator)

/-- Apply the operators that follow an operand. -/
def climbTrailing
    (precedences : Precedences)
    (operand : Expr)
    (tokens : List Token) :
    Expr × NotLonger tokens :=
  match tokens with
  | ⟨.operator mode, operator⟩ :: rest =>
      if precedences.fixity? operator = some .after then
        match climbTrailing precedences (.unary mode operator .after operand) rest with
        | (tree, ⟨final, _⟩) => (tree, ⟨final, by simp; omega⟩)
      else (operand, ⟨⟨.operator mode, operator⟩ :: rest, by simp⟩)
  | tokens => (operand, ⟨tokens, by simp⟩)

mutual

/-- Read an operand with everything that binds tighter than any operator between operands. -/
def climbOperand (precedences : Precedences) (tokens : List Token) :
    Option (Expr × Shorter tokens) :=
  match tokens with
  | ⟨.number, text⟩ :: rest =>
      match precedences.climbTrailing (.number text) rest with
      | (tree, ⟨final, _⟩) => some (tree, ⟨final, by simp; omega⟩)
  | ⟨.variable, name⟩ :: rest =>
      match precedences.climbTrailing (.variable name) rest with
      | (tree, ⟨final, _⟩) => some (tree, ⟨final, by simp; omega⟩)
  | ⟨.openParen, _⟩ :: rest =>
      match climb precedences none rest with
      | some (inner, ⟨⟨.closeParen, _⟩ :: behind, _⟩) =>
          match precedences.climbTrailing inner behind with
          | (tree, ⟨final, _⟩) => some (tree, ⟨final, by simp_all; omega⟩)
      | _ => none
  | ⟨.operator mode, operator⟩ :: rest =>
      match precedences.specs.find? (signed mode operator).2 with
      | some ⟨_, .before, precedence⟩ =>
          match climb precedences (some precedence) rest with
          | some (operand, ⟨final, _⟩) =>
              some (.unary (signed mode operator).1 (signed mode operator).2 .before operand,
                ⟨final, by simp; omega⟩)
          | none => none
      | _ => none
  | ⟨.function mode, name⟩ :: ⟨.openParen, _⟩ :: ⟨.closeParen, _⟩ :: rest =>
      some (.call mode name [], ⟨rest, by simp; omega⟩)
  | ⟨.function mode, name⟩ :: ⟨.openParen, _⟩ :: rest =>
      match climbArguments precedences rest with
      | some (arguments, ⟨final, _⟩) => some (.call mode name arguments, ⟨final, by simp; omega⟩)
      | none => none
  | _ => none
  termination_by (tokens.length, 0)
  decreasing_by all_goals (apply Prod.Lex.left; simp; try omega)

/-- Read the arguments of a call up to the parenthesis that closes it. -/
def climbArguments (precedences : Precedences) (tokens : List Token) :
    Option (List Expr × Shorter tokens) :=
  match climb precedences none tokens with
  | some (argument, ⟨⟨.comma, _⟩ :: behind, _⟩) =>
      match climbArguments precedences behind with
      | some (others, ⟨final, _⟩) => some (argument :: others, ⟨final, by simp_all; omega⟩)
      | none => none
  | some (argument, ⟨⟨.closeParen, _⟩ :: behind, _⟩) =>
      some ([argument], ⟨behind, by simp_all; omega⟩)
  | _ => none
  termination_by (tokens.length, 2)
  decreasing_by
    · exact Prod.Lex.right _ (by decide)
    · apply Prod.Lex.left; simp_all; omega

/-- Read an expression up to the first operator that the limit does not absorb. -/
def climb (precedences : Precedences) (limit : Option Int) (tokens : List Token) :
    Option (Expr × Shorter tokens) :=
  match climbOperand precedences tokens with
  | some (operand, ⟨rest, _⟩) =>
      match climbFrom precedences limit operand rest with
      | some (tree, ⟨final, _⟩) => some (tree, ⟨final, by omega⟩)
      | none => none
  | none => none
  termination_by (tokens.length, 1)
  decreasing_by
    · exact Prod.Lex.right _ (by decide)
    · apply Prod.Lex.left; assumption

/-- Go on from a left operand. -/
def climbFrom
    (precedences : Precedences)
    (limit : Option Int)
    (left : Expr)
    (tokens : List Token) :
    Option (Expr × NotLonger tokens) :=
  match tokens with
  | ⟨.operator mode, operator⟩ :: rest =>
      match precedences.specs.find? operator with
      | some ⟨associativity, .between, precedence⟩ =>
          if Absorbs limit ⟨associativity, .between, precedence⟩ then
            match climb precedences (some precedence) rest with
            | some (right, ⟨middle, _⟩) =>
                match climbFrom precedences limit (.binary mode operator left right) middle with
                | some (tree, ⟨final, _⟩) => some (tree, ⟨final, by simp; omega⟩)
                | none => none
            | none => none
          else some (left, ⟨⟨.operator mode, operator⟩ :: rest, by simp⟩)
      | _ => some (left, ⟨⟨.operator mode, operator⟩ :: rest, by simp⟩)
  | tokens => some (left, ⟨tokens, by simp⟩)
  termination_by (tokens.length, 0)
  decreasing_by all_goals (apply Prod.Lex.left; simp; try omega)

end

/-- Read an expression, which must use up all tokens. -/
def climbAll (precedences : Precedences) (tokens : List Token) : Option Expr :=
  match precedences.climb none tokens with
  | some (tree, ⟨[], _⟩) => some tree
  | _ => none

end Precedences
end Reckoner
