import Reckoner.Data.Table
import Reckoner.Expr
import Reckoner.Expr.Operator
import Reckoner.Failure

/-!
# Postfix order

Tokens are read into a tree in two steps.  `Precedences.toPostfix` moves every operator and function
behind its operands, with a mark in front of the arguments of each function.  `Precedences.build`
then reads the result from the back: an operator takes its operands, the right one first, and a
function takes arguments until it meets its mark.
-/

namespace Reckoner

/-- How each operator name is read. -/
structure Precedences where
  specs : Table OperatorSpec
  deriving DecidableEq

namespace Precedences

/-- No operator is known. -/
def empty : Precedences :=
  ⟨.empty⟩

/-- Learn the operators of one name space. -/
def loadMode (grammar : Grammar) (precedences : Precedences) (mode : Mode) : Precedences :=
  (grammar.names (.operator mode)).foldl
    (fun result name =>
      match grammar.spec? mode name with
      | some spec => ⟨result.specs.insert name spec⟩
      | none => result)
    precedences

/-- Learn the operators of a grammar; one that takes unreduced operands comes after, and so hides, a
namesake that does not. -/
def load (precedences : Precedences) (grammar : Grammar) : Precedences :=
  loadMode grammar (loadMode grammar precedences .value) .tree

/-- How an operator is read. -/
def spec (precedences : Precedences) (name : String) : Except Failure OperatorSpec :=
  match precedences.specs.find? name with
  | some spec => .ok spec
  | none => .error (.unknownPrecedence name)

/-- The operator that takes the place of a `-` that has no left operand. -/
def negation : String := "`"

/-- Whether an operand is expected after a token, so that a `-` there is a sign. -/
def expectsOperand (precedences : Precedences) : (previous : Option Token) → Bool
  | none => true
  | some token =>
      match token.kind with
      | .openParen => true
      | .comma => true
      | .operator _ =>
          match precedences.specs.find? token.lexeme with
          | some spec => spec.fixity != .after
          | none => true
      | _ => false

/-- An operator token as it is read after `previous`: a `-` that is a sign becomes the negation. -/
def resolve (precedences : Precedences) (previous : Option Token) (token : Token) : Token :=
  if token.lexeme = "-" ∧ precedences.expectsOperand previous then ⟨.operator .value, negation⟩
  else token

/-- The reordering under way: the tokens already placed, last to first, the operators, functions and
parentheses that wait for what follows, latest first, and the token read last. -/
structure Reordering where
  placed : List Token
  waiting : List Token
  previous : Option Token
  deriving DecidableEq

/-- Place the waiting operators that bind at least as tightly as an arriving one, and all waiting
functions on the way. -/
def placeTighter (precedences : Precedences) (arriving : OperatorSpec) :
    (placed waiting : List Token) → Except Failure (List Token × List Token)
  | placed, [] => .ok (placed, [])
  | placed, top :: waiting =>
      match top.kind with
      | .operator _ =>
          match precedences.spec top.lexeme with
          | .error failure => .error failure
          | .ok spec =>
              if spec.precedence < arriving.precedence ∨
                  (spec.precedence = arriving.precedence ∧ arriving.associativity = .right) then
                .ok (placed, top :: waiting)
              else placeTighter precedences arriving (top :: placed) waiting
      | .function _ => placeTighter precedences arriving (top :: placed) waiting
      | _ => .ok (placed, top :: waiting)

/-- Place everything that waits inside the innermost open parenthesis, which stays on top. -/
def placeInside : (placed waiting : List Token) → Except Failure (List Token × List Token)
  | _, [] => .error .mismatchedParentheses
  | placed, top :: waiting =>
      if top.kind = .openParen then .ok (placed, top :: waiting)
      else placeInside (top :: placed) waiting

/-- Take in the next token. -/
def shift (precedences : Precedences) (state : Reordering) (token : Token) :
    Except Failure Reordering :=
  match token.kind with
  | .number | .variable => .ok ⟨token :: state.placed, state.waiting, some token⟩
  -- the mark tells where the arguments begin once the function has been placed behind them
  | .function _ => .ok ⟨.functionEnd :: state.placed, token :: state.waiting, some token⟩
  | .operator _ =>
      let read := precedences.resolve state.previous token
      match precedences.spec read.lexeme with
      | .error failure => .error failure
      | .ok spec =>
          match spec.fixity with
          | .after => .ok ⟨read :: state.placed, state.waiting, some read⟩
          | .before => .ok ⟨state.placed, read :: state.waiting, some read⟩
          | .between =>
              match precedences.placeTighter spec state.placed state.waiting with
              | .error failure => .error failure
              | .ok (placed, waiting) => .ok ⟨placed, read :: waiting, some read⟩
  | .openParen => .ok ⟨state.placed, token :: state.waiting, some token⟩
  | .closeParen =>
      match placeInside state.placed state.waiting with
      | .error failure => .error failure
      -- a function in front of the parenthesis goes on waiting
      | .ok (placed, waiting) => .ok ⟨placed, waiting.tail, some token⟩
  | .comma =>
      match placeInside state.placed state.waiting with
      | .error failure => .error failure
      | .ok (placed, waiting) => .ok ⟨placed, waiting, some token⟩
  | .functionEnd | .any | .whitespace => .ok { state with previous := some token }

/-- Take in tokens one after the other. -/
def shiftAll (precedences : Precedences) :
    Reordering → List Token → Except Failure Reordering
  | state, [] => .ok state
  | state, token :: rest =>
      match precedences.shift state token with
      | .error failure => .error failure
      | .ok next => precedences.shiftAll next rest

/-- Place everything that still waits at the end; a parenthesis among it was never closed. -/
def placeRest : (placed waiting : List Token) → Except Failure (List Token)
  | placed, [] => .ok placed
  | placed, top :: waiting =>
      if top.kind.isOperator || top.kind.isFunction then placeRest (top :: placed) waiting
      else .error .mismatchedParentheses

/-- The postfix order of tokens, last to first. -/
def reversePostfix (precedences : Precedences) (tokens : List Token) :
    Except Failure (List Token) :=
  match precedences.shiftAll ⟨[], [], none⟩ tokens with
  | .error failure => .error failure
  | .ok state => placeRest state.placed state.waiting

/-- The postfix order of tokens. -/
def toPostfix (precedences : Precedences) (tokens : List Token) : Except Failure (List Token) :=
  (precedences.reversePostfix tokens).map List.reverse

/-- What remains of tokens after some of them have been consumed. -/
abbrev Shorter (tokens : List Token) :=
  { rest : List Token // rest.length < tokens.length }

/-- What remains of tokens after none or some of them have been consumed. -/
abbrev NotLonger (tokens : List Token) :=
  { rest : List Token // rest.length ≤ tokens.length }

mutual

/-- Read one tree from the front of postfix tokens given last to first. -/
def construct (precedences : Precedences) (tokens : List Token) :
    Except Failure (Expr × Shorter tokens) :=
  match tokens with
  | [] => .error .emptyExpression
  | token :: rest =>
      match token.kind with
      | .number => .ok (.number token.lexeme, ⟨rest, by simp⟩)
      | .variable => .ok (.variable token.lexeme, ⟨rest, by simp⟩)
      | .operator mode =>
          match precedences.spec token.lexeme with
          | .error failure => .error failure
          | .ok spec =>
              if spec.fixity = .between then
                -- last to first, the right operand stands in front of the left one
                match constructOperand precedences token.lexeme rest with
                | .error failure => .error failure
                | .ok (right, ⟨middle, _⟩) =>
                    match constructOperand precedences token.lexeme middle with
                    | .error failure => .error failure
                    | .ok (left, ⟨final, _⟩) =>
                        .ok (.binary mode token.lexeme left right, ⟨final, by simp; omega⟩)
              else
                match constructOperand precedences token.lexeme rest with
                | .error failure => .error failure
                | .ok (operand, ⟨final, _⟩) =>
                    .ok (.unary mode token.lexeme spec.fixity operand, ⟨final, by simp; omega⟩)
      | .function mode =>
          match constructArguments precedences token.lexeme [] rest with
          | .error failure => .error failure
          | .ok (arguments, ⟨final, _⟩) =>
              .ok (.call mode token.lexeme arguments, ⟨final, by simp; omega⟩)
      | _ => .error (.unexpectedToken token)
  termination_by (tokens.length, 0)
  decreasing_by all_goals (apply Prod.Lex.left; simp; try omega)

/-- Read the operand of an operator, which never reaches past the mark of an enclosing call. -/
def constructOperand (precedences : Precedences) (operator : String) (tokens : List Token) :
    Except Failure (Expr × Shorter tokens) :=
  match tokens with
  | [] => .error (.missingOperand operator)
  | next :: rest =>
      if next.kind = .functionEnd then .error (.missingOperand operator)
      else construct precedences (next :: rest)
  termination_by (tokens.length, 1)
  decreasing_by exact Prod.Lex.right _ (by decide)

/-- Read arguments up to the mark of the call; `later` are the ones read so far, in order. -/
def constructArguments
    (precedences : Precedences)
    (name : String)
    (later : List Expr)
    (tokens : List Token) :
    Except Failure (List Expr × Shorter tokens) :=
  match tokens with
  | [] => .error (.unterminatedCall name)
  | next :: rest =>
      if next.kind = .functionEnd then .ok (later, ⟨rest, by simp⟩)
      else
        match construct precedences (next :: rest) with
        | .error failure => .error failure
        | .ok (argument, ⟨middle, _⟩) =>
            match constructArguments precedences name (argument :: later) middle with
            | .error failure => .error failure
            | .ok (arguments, ⟨final, _⟩) => .ok (arguments, ⟨final, by omega⟩)
  termination_by (tokens.length, 1)
  decreasing_by
    · exact Prod.Lex.right _ (by decide)
    · apply Prod.Lex.left; assumption

end

/-- Read a tree from postfix tokens given last to first, all of which it must consume. -/
def buildReversed (precedences : Precedences) (tokens : List Token) : Except Failure Expr :=
  match construct precedences tokens with
  | .error failure => .error failure
  | .ok (tree, ⟨rest, _⟩) =>
      if rest.isEmpty then .ok tree else .error (.trailingTokens rest.length)

/-- Read a tree from postfix tokens. -/
def build (precedences : Precedences) (tokens : List Token) : Except Failure Expr :=
  precedences.buildReversed tokens.reverse

/-- Read a tree from tokens in the order in which they are written. -/
def parse (precedences : Precedences) (tokens : List Token) : Except Failure Expr :=
  match tokens with
  | [] => .error .emptyExpression
  | _ =>
      match precedences.reversePostfix tokens with
      | .error failure => .error failure
      | .ok reversed => precedences.buildReversed reversed

end Precedences
end Reckoner
