import Reckoner.Expr.Operator

/-!
# Expressions

The tree of an expression.  Literals keep their text, since the representation of numbers is chosen
only when the tree is evaluated.  The rendering puts parentheses around every operator:

| Node     | Rendering      |
|----------|----------------|
| number   | `2.5`          |
| variable | `x`            |
| binary   | `(left+right)` |
| unary    | `(operand)!`   |
| call     | `f(a, b)`      |
-/

namespace Reckoner

/-- An expression. -/
inductive Expr
  | number (text : String)
  | variable (name : String)
  | binary (mode : Mode) (operator : String) (left right : Expr)
  | unary (mode : Mode) (operator : String) (fixity : Fixity) (operand : Expr)
  | call (mode : Mode) (name : String) (arguments : List Expr)
  deriving Repr

namespace Expr

mutual

/-- Whether two expressions are equal, by comparing them node by node. -/
def decideEq : (first second : Expr) → Decidable (first = second)
  | .number text, .number other =>
      if same : text = other then isTrue (by rw [same]) else isFalse (by simp [same])
  | .variable name, .variable other =>
      if same : name = other then isTrue (by rw [same]) else isFalse (by simp [same])
  | .binary mode operator left right, .binary otherMode otherOperator otherLeft otherRight =>
      if sameHead : mode = otherMode ∧ operator = otherOperator then
        match decideEq left otherLeft, decideEq right otherRight with
        | isTrue sameLeft, isTrue sameRight =>
            isTrue (by rw [sameHead.1, sameHead.2, sameLeft, sameRight])
        | isFalse different, _ => isFalse (by simp [different])
        | _, isFalse different => isFalse (by simp [different])
      else isFalse (by
        intro same
        injection same with sameMode sameOperator
        exact sameHead ⟨sameMode, sameOperator⟩)
  | .unary mode operator fixity operand, .unary otherMode otherOperator otherFixity otherOperand =>
      if sameHead : mode = otherMode ∧ operator = otherOperator ∧ fixity = otherFixity then
        match decideEq operand otherOperand with
        | isTrue same => isTrue (by rw [sameHead.1, sameHead.2.1, sameHead.2.2, same])
        | isFalse different => isFalse (by simp [different])
      else isFalse (by
        intro same
        injection same with sameMode sameOperator sameFixity
        exact sameHead ⟨sameMode, sameOperator, sameFixity⟩)
  | .call mode name arguments, .call otherMode otherName otherArguments =>
      if sameHead : mode = otherMode ∧ name = otherName then
        match decideEqAll arguments otherArguments with
        | isTrue same => isTrue (by rw [sameHead.1, sameHead.2, same])
        | isFalse different => isFalse (by simp [different])
      else isFalse (by
        intro same
        injection same with sameMode sameName
        exact sameHead ⟨sameMode, sameName⟩)
  | .number _, .variable _ | .number _, .binary .. | .number _, .unary .. | .number _, .call .. =>
      isFalse (by simp)
  | .variable _, .number _ | .variable _, .binary .. | .variable _, .unary ..
  | .variable _, .call .. => isFalse (by simp)
  | .binary .., .number _ | .binary .., .variable _ | .binary .., .unary ..
  | .binary .., .call .. =>
      isFalse (by simp)
  | .unary .., .number _ | .unary .., .variable _ | .unary .., .binary .. | .unary .., .call .. =>
      isFalse (by simp)
  | .call .., .number _ | .call .., .variable _ | .call .., .binary .. | .call .., .unary .. =>
      isFalse (by simp)

/-- Whether two lists of expressions are equal. -/
def decideEqAll : (first second : List Expr) → Decidable (first = second)
  | [], [] => isTrue rfl
  | [], _ :: _ => isFalse (by simp)
  | _ :: _, [] => isFalse (by simp)
  | first :: rest, other :: others =>
      match decideEq first other, decideEqAll rest others with
      | isTrue same, isTrue sameRest => isTrue (by rw [same, sameRest])
      | isFalse different, _ => isFalse (by simp [different])
      | _, isFalse different => isFalse (by simp [different])

end

instance : DecidableEq Expr := decideEq

/-- Whether reduction hands the operands of this node over unreduced. -/
def isTreeValue : Expr → Bool
  | .binary mode _ _ _ => mode == .tree
  | .unary mode _ _ _ => mode == .tree
  | .call mode _ _ => mode == .tree
  | _ => false

/-- The name of an expression that is a bare variable. -/
def variableName? : Expr → Option String
  | .variable name => some name
  | _ => none

mutual

/-- The fully parenthesized rendering of an expression. -/
def render : Expr → String
  | .number text => text
  | .variable name => name
  | .binary _ operator left right => "(" ++ left.render ++ operator ++ right.render ++ ")"
  | .unary _ operator _ operand => "(" ++ operand.render ++ ")" ++ operator
  | .call _ name arguments => name ++ "(" ++ renderArguments arguments ++ ")"

/-- The renderings of the arguments of a call, separated by commas. -/
def renderArguments : List Expr → String
  | [] => ""
  | [last] => last.render
  | first :: rest => first.render ++ ", " ++ renderArguments rest

end

end Expr
end Reckoner
