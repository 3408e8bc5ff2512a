import Reckoner.Number.Decimal
import Reckoner.Number.Decimal.Text
import Reckoner.Number.Fast
import Reckoner.Number.Literal

/-!
# Numbers

A number is either fast, a floating point number, or precise, a decimal.  An operation on two
numbers needs them to be of one kind; it never converts, since which kind to convert to is not for a
number to decide.
-/

namespace Reckoner

/-- The two representations of numbers. -/
inductive NumberKind
  | fast
  | precise
  deriving DecidableEq, Repr

/-- The name of a representation. -/
def NumberKind.name : NumberKind → String
  | .fast => "fast"
  | .precise => "precise"

/-- A number in one of the two representations. -/
inductive Number
  | fast (value : Binary64)
  | precise (value : Decimal)
  deriving DecidableEq, Repr

namespace Number

/-- The representation of a number. -/
def kind : Number → NumberKind
  | .fast _ => .fast
  | .precise _ => .precise

/-- The failure of an operation on numbers of two kinds. -/
def mixed (first second : Number) : Failure :=
  .mixedRepresentations first.kind.name second.kind.name

/-- The number that a literal denotes in a representation. -/
def ofLiteral (kind : NumberKind) (literal : Literal) : Number :=
  match kind with
  | .fast => .fast literal.toBinary64
  | .precise => .precise literal.toDecimal

/-- Read a literal in a representation. -/
def parse (kind : NumberKind) (text : String) : Except Failure Number :=
  match Literal.read? text.toList with
  | some literal => .ok (ofLiteral kind literal)
  | none => .error (.invalidNumber text)

/-- An integer in a representation. -/
def ofInt (kind : NumberKind) (number : Int) : Number :=
  match kind with
  | .fast => .fast (.ofInt number)
  | .precise => .precise (.ofInt number)

/-- Zero in a representation. -/
def zero (kind : NumberKind) : Number := ofInt kind 0

/-- One in a representation. -/
def one (kind : NumberKind) : Number := ofInt kind 1

/-- Addition. -/
def add : (first second : Number) → Except Failure Number
  | .fast first, .fast second => .ok (.fast (first.add second))
  | .precise first, .precise second => .ok (.precise (first.add second))
  | first, second => .error (mixed first second)

/-- Subtraction. -/
def sub : (first second : Number) → Except Failure Number
  | .fast first, .fast second => .ok (.fast (first.sub second))
  | .precise first, .precise second => .ok (.precise (first.sub second))
  | first, second => .error (mixed first second)

/-- Multiplication. -/
def mul : (first second : Number) → Except Failure Number
  | .fast first, .fast second => .ok (.fast (first.mul second))
  | .precise first, .precise second => .ok (.precise (first.mul second))
  | first, second => .error (mixed first second)

/-- Division, which fails on a zero divisor. -/
def div : (first second : Number) → Except Failure Number
  | .fast first, .fast second => (first.divide second).map .fast
  | .precise first, .precise second => (first.div second).map .precise
  | first, second => .error (mixed first second)

/-- Comparison by value; floating point numbers are compared in their total order. -/
def compare : (first second : Number) → Except Failure Ordering
  | .fast first, .fast second => .ok (first.order second)
  | .precise first, .precise second => .ok (first.order second)
  | first, second => .error (mixed first second)

/-- Whether two numbers are of one kind and equal by value. -/
def equal : (first second : Number) → Bool
  | .fast first, .fast second => first.equal second
  | .precise first, .precise second => first.equal second
  | _, _ => false

/-- The opposite number. -/
def neg : Number → Number
  | .fast value => .fast value.neg
  | .precise value => .precise value.neg

/-- The sign of a number: minus one, zero or one. -/
def signum : Number → Int
  | .fast value => value.signum
  | .precise value => value.signum

/-- Whether a number has no sign. -/
def isZero (number : Number) : Bool :=
  number.signum == 0

/-- The size of a number. -/
def abs (number : Number) : Number :=
  if number.signum < 0 then number.neg else number

/-- An integer power. -/
def powInt (base : Number) (exponent : Int) : Except Failure Number :=
  match base with
  | .fast value => (value.power exponent).map .fast
  | .precise value => (value.powInt exponent).map .precise

/-- The greatest integer that is not above a number. -/
def floor : Number → Number
  | .fast value => .fast value.floor
  | .precise value => .precise value.floor

/-- The least integer that is not below a number. -/
def ceiling : Number → Number
  | .fast value => .fast value.ceiling
  | .precise value => .precise value.ceiling

/-- What a number has beyond its floor. -/
def fractionalPart : Number → Number
  | .fast value => .fast value.fractionalPart
  | .precise value => .precise value.fractionalPart

/-- Whether a number is an integer. -/
def isIntegral : Number → Bool
  | .fast value => value.isIntegral
  | .precise value => value.isIntegral

/-- Whether a number is neither an infinity nor a non-number. -/
def isFinite : Number → Bool
  | .fast value => value.isFinite
  | .precise _ => true

/-- The truncated value, if it is in the range of 64-bit integers. -/
def toInt64? : Number → Option Int
  | .fast value => value.toInt64?
  | .precise value => value.toInt64?

/-- The nearest floating point number. -/
def toBinary64 : Number → Binary64
  | .fast value => value
  | .precise value => value.toBinary64

/-- Drop digits that no later step needs: the powers inside a series would otherwise grow without
bound. -/
def trimmed : Number → Number
  | .fast value => .fast value
  | .precise value => .precise (value.rounded Decimal.powerPrecision)

/-- The number of significant digits that a number carries. -/
def maxPrecision : Number → Nat
  | .fast _ => Binary64.maxPrecision
  | .precise _ => Decimal.internalPrecision

/-- The smallest difference that counts at the size of a number. -/
def maxError : Number → Number
  | .fast _ => .fast Binary64.maxError
  | .precise value => .precise value.maxError

/-- The text of a number. -/
def display : Number → String
  | .fast value => value.display
  | .precise value => value.toText

end Number
end Reckoner
