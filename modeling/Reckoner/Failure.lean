import Reckoner.Expr.Token

/-!
# Failures

Every way in which reading or evaluating an expression can fail, as a cause.  A cause determines its
category and its wording; no other module words a failure.
-/

namespace Reckoner

/-- The stage of the work to which a failure belongs. -/
inductive Category
  | tokenize
  | parse
  | domain
  | promotion
  | reduction
  | cancelled
  deriving DecidableEq, Repr

/-- The words that introduce a failure of a category. -/
def Category.name : Category → String
  | .tokenize => "tokenize failure"
  | .parse => "parse failure"
  | .domain => "domain failure"
  | .promotion => "promotion failure"
  | .reduction => "reduction failure"
  | .cancelled => "cancelled"

/-- The causes of failure. -/
inductive Failure
  /-- No pattern matches a non-empty piece of the text at this byte offset. -/
  | noTokenAt (offset : Nat)
  | mismatchedParentheses
  | missingOperand (operator : String)
  | unterminatedCall (name : String)
  | trailingTokens (count : Nat)
  | emptyExpression
  | unknownPrecedence (operator : String)
  | unexpectedToken (token : Token)
  | divisionByZero
  /-- An argument lies outside the domain of a function. -/
  | outsideDomain (function detail : String)
  | invalidNumber (text : String)
  | noPromotionPath (source target : String)
  | mixedRepresentations (left right : String)
  | unknownOperator (name : String)
  | unknownFunction (name : String)
  | undefinedVariable (name : String)
  | recursiveDefinition (name : String)
  | noNumberImplementation
  | unknownNumberImplementation (name : String)
  | cancelled
  | timedOut (milliseconds : Nat)
  deriving DecidableEq, Repr

namespace Failure

/-- The category to which a cause belongs. -/
def category : Failure → Category
  | .noTokenAt _ => .tokenize
  | .mismatchedParentheses => .parse
  | .missingOperand _ => .parse
  | .unterminatedCall _ => .parse
  | .trailingTokens _ => .parse
  | .emptyExpression => .parse
  | .unknownPrecedence _ => .parse
  | .unexpectedToken _ => .parse
  | .divisionByZero => .domain
  | .outsideDomain _ _ => .domain
  | .invalidNumber _ => .domain
  | .noPromotionPath _ _ => .promotion
  | .mixedRepresentations _ _ => .promotion
  | .unknownOperator _ => .reduction
  | .unknownFunction _ => .reduction
  | .undefinedVariable _ => .reduction
  | .recursiveDefinition _ => .reduction
  | .noNumberImplementation => .reduction
  | .unknownNumberImplementation _ => .reduction
  | .cancelled => .cancelled
  | .timedOut _ => .cancelled

/-- The wording of a cause, without its category. -/
def detail : Failure → String
  | .noTokenAt offset => "no token matches at offset " ++ toString offset
  | .mismatchedParentheses => "mismatched parentheses"
  | .missingOperand operator => "operator '" ++ operator ++ "' is missing an operand"
  | .unterminatedCall name => "call to '" ++ name ++ "' is not terminated"
  | .trailingTokens count => toString count ++ " token(s) left over after parsing"
  | .emptyExpression => "expression is empty"
  | .unknownPrecedence operator => "no precedence known for operator '" ++ operator ++ "'"
  | .unexpectedToken token => "unexpected " ++ token.render
  | .divisionByZero => "division by zero"
  | .outsideDomain function detail => function ++ ": " ++ detail
  | .invalidNumber text => "'" ++ text ++ "' is not a number"
  | .noPromotionPath source target =>
      "no promotion path from '" ++ source ++ "' to '" ++ target ++ "'"
  | .mixedRepresentations left right =>
      "operands use different representations ('" ++ left ++ "' and '" ++ right ++ "')"
  | .unknownOperator name => "operator '" ++ name ++ "' is not registered"
  | .unknownFunction name => "function '" ++ name ++ "' is not registered"
  | .undefinedVariable name => "variable '" ++ name ++ "' is not defined"
  | .recursiveDefinition name => "definition of '" ++ name ++ "' refers to itself"
  | .noNumberImplementation => "no number implementation is loaded"
  | .unknownNumberImplementation name => "number implementation '" ++ name ++ "' is not registered"
  | .cancelled => "evaluation was cancelled"
  | .timedOut milliseconds => "evaluation exceeded " ++ toString milliseconds ++ " ms"

/-- The wording of a cause, introduced by its category. -/
def message (failure : Failure) : String :=
  failure.category.name ++ ": " ++ failure.detail

/-- The arguments of a function are not ones that it takes. -/
def badArguments (name : String) : Failure :=
  .outsideDomain name "arguments are outside the domain"

/-- Whether a failure reports that the evaluation was stopped from outside. -/
def isCancelled (failure : Failure) : Bool :=
  failure.category == .cancelled

end Failure
end Reckoner
