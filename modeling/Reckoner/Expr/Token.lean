import Reckoner.Expr.Operator
import Reckoner.Text.Quoted

/-!
# Tokens

A token is a lexeme together with what it was recognized as.  The priority of a kind decides between
two kinds whose patterns match equally many characters: `sin` is a function although it is shaped
like a variable.
-/

namespace Reckoner

/-- What a lexeme was recognized as. -/
inductive TokenKind
  | functionEnd
  | any
  | whitespace
  | comma
  | variable
  | operator (mode : Mode)
  | number
  | function (mode : Mode)
  | openParen
  | closeParen
  deriving DecidableEq, Repr

namespace TokenKind

/-- Every kind of token, in order of priority. -/
def all : List TokenKind :=
  [.functionEnd, .any, .whitespace, .comma, .variable, .operator .value, .operator .tree, .number,
    .function .value, .function .tree, .openParen, .closeParen]

/-- The rank of a kind among the kinds that match equally many characters. -/
def priority : TokenKind → Int
  | .functionEnd => -1
  | .any => 0
  | .whitespace => 1
  | .comma => 2
  | .variable => 3
  | .operator _ => 4
  | .number => 5
  | .function _ => 6
  | .openParen => 7
  | .closeParen => 7

/-- Kinds are compared by priority alone. -/
def byPriority (first second : TokenKind) : Ordering :=
  compare first.priority second.priority

/-- Whether a token of this kind is an operator. -/
def isOperator : TokenKind → Bool
  | .operator _ => true
  | _ => false

/-- Whether a token of this kind is the name of a function. -/
def isFunction : TokenKind → Bool
  | .function _ => true
  | _ => false

/-- The name of a kind of token. -/
def name : TokenKind → String
  | .functionEnd => "function-end"
  | .any => "any"
  | .whitespace => "whitespace"
  | .comma => "comma"
  | .variable => "variable"
  | .operator .value => "operator"
  | .operator .tree => "tree-value operator"
  | .number => "number"
  | .function .value => "function"
  | .function .tree => "tree-value function"
  | .openParen => "open paren"
  | .closeParen => "close paren"

/-- The kind of token that the names of a name space become. -/
def ofSymbol : Symbol → TokenKind
  | .operator mode => .operator mode
  | .function mode => .function mode

end TokenKind

/-- A lexeme and what it was recognized as. -/
structure Token where
  kind : TokenKind
  lexeme : String
  deriving DecidableEq, Repr

namespace Token

/-- The mark that stands in front of the arguments of a function in postfix order. -/
def functionEnd : Token :=
  ⟨.functionEnd, ""⟩

/-- The kind of a token followed by its lexeme in quotes. -/
def render (token : Token) : String :=
  token.kind.name ++ "(" ++ Text.quoted token.lexeme ++ ")"

end Token
end Reckoner
