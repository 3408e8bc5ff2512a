import Reckoner.Failure
import Reckoner.Number.Binary64.Arithmetic
import Reckoner.Number.Binary64.Shortest

/-!
# Floating point numbers as numbers of the calculator

What the calculator adds to floating point arithmetic: division by zero is a failure, and results
are shown with at most ten decimal places.
-/

namespace Reckoner
namespace Binary64

/-- The number of significant digits that floating point numbers are taken to carry. -/
def maxPrecision : Nat := 18

/-- The size below which the terms of a series no longer count. -/
def maxError : Binary64 := ⟨0x3c32725dd1d243ac⟩

/-- The ratio of a circle's circumference to its diameter. -/
def pi : Binary64 := ⟨0x400921fb54442d18⟩

/-- Division that fails on a zero divisor. -/
def divide (first second : Binary64) : Except Failure Binary64 :=
  if second.isZero then .error .divisionByZero else .ok (first.div second)

/-- An integer power.  Exponents beyond 32 bits go through the general power function. -/
def power (base : Binary64) (exponent : Int) : Except Failure Binary64 :=
  if exponent < 0 ∧ base.isZero then .error .divisionByZero
  else if -0x80000000 ≤ exponent ∧ exponent < 0x80000000 then .ok (base.powInt exponent)
  else .ok (base.powReal (ofInt exponent))

/-- What a number has beyond its floor. -/
def fractionalPart (number : Binary64) : Binary64 :=
  number.sub number.floor

/-- Ten to the power of the number of decimal places that are shown. -/
def shownUnits : Binary64 := ofInt 10000000000

/-- Numbers of this size and more have no digits behind the decimal places that are shown. -/
def roundingBound : Binary64 := ofInt 9000000000000000

/-- A number rounded to the decimal places that are shown. -/
def shown (number : Binary64) : Binary64 :=
  if number.magnitude < roundingBound.magnitude then
    ((number.mul shownUnits).nearest).div shownUnits
  else number

/-- The text of a number, rounded to the decimal places that are shown; a zero has no sign. -/
def display (number : Binary64) : String :=
  if number.shown.isZero then "0" else number.shown.toText

end Binary64

end Reckoner
