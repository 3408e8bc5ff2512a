import Reckoner.Evaluation.Registry
import Reckoner.Standard.Combinatorics

/-!
# The standard operators

Arithmetic, powers, factorials and selections act on numbers.  `=` and `:=` receive the variable
that they bind and the unreduced right side.
-/

namespace Reckoner
namespace Standard

/-- Any number. -/
def anyNumber (_ : Number) : Bool := true

/-- Any two numbers. -/
def anyNumbers (_ _ : Number) : Bool := true

/-- Two integers. -/
def integralNumbers (first second : Number) : Bool :=
  first.isIntegral && second.isIntegral

/-- A base and an exponent that have a power. -/
def hasPower (base exponent : Number) : Bool :=
  !(base.isZero && exponent.isZero) &&
    !(base.signum < 0 && !exponent.fractionalPart.isZero)

/-- An integer that is not negative. -/
def hasFactorial (number : Number) : Bool :=
  number.isIntegral && 0 ≤ number.signum

/-- An operator between two numbers. -/
def binaryOperator
    (name : String)
    (admits : Number → Number → Bool)
    (apply : Number → Number → Calc Number) :
    NumberFunction :=
  .binary name admits (fun _ => apply)

/-- An operator on one number. -/
def unaryOperator
    (name : String)
    (admits : Number → Bool)
    (apply : Number → Calc Number) :
    NumberFunction :=
  .unary name admits (fun _ => apply)

/-- The operators on numbers, how they are read, and what they do. -/
def operators : List (String × OperatorSpec × NumberFunction) :=
  [("+", .binary .left 0, binaryOperator "+" anyNumbers (fun first second => first.add second)),
    ("-", .binary .left 0, binaryOperator "-" anyNumbers (fun first second => first.sub second)),
    ("`", .leading 0, unaryOperator "`" anyNumber (fun number => pure number.neg)),
    ("*", .binary .left 1, binaryOperator "*" anyNumbers (fun first second => first.mul second)),
    ("/", .binary .left 1, binaryOperator "/" anyNumbers (fun first second => first.div second)),
    ("^", .binary .right 2, binaryOperator "^" hasPower Elementary.power),
    ("!", .trailing 0, unaryOperator "!" hasFactorial Combinatorics.factorial),
    ("nPr", .binary .right 1, binaryOperator "nPr" integralNumbers Combinatorics.permutations),
    ("nCr", .binary .right 1, binaryOperator "nCr" integralNumbers Combinatorics.combinations)]

/-- A variable and an expression. -/
def isAssignment : List Expr → Bool
  | [.variable _, _] => true
  | _ => false

/-- `x = e`: reduce the right side and bind the variable to its value. -/
def assign : TreeFunction where
  admits := isAssignment
  apply reducer
    | [.variable name, tree] => do
        let value ← reducer.reduce tree
        Eval.changeContext (·.setVariable name value)
        pure value
    | _ => Run.fail (.badArguments "=")

/-- `x := e`: bind the name to the unreduced right side and give its present value. -/
def define : TreeFunction where
  admits := isAssignment
  apply reducer
    | [.variable name, tree] => do
        Eval.changeContext (·.setDefinition name tree)
        reducer.reduce tree
    | _ => Run.fail (.badArguments ":=")

/-- The operators on unreduced expressions, how they are read, and what they do. -/
def treeOperators : List (String × OperatorSpec × TreeFunction) :=
  [("=", .binary .right (-1), assign), (":=", .binary .right (-1), define)]

end Standard
end Reckoner
