import Reckoner.Number.Binary64

/-!
# Arithmetic on binary floating point numbers

Each operation gives the number nearest to its exact result.  A non-number is passed on, the left
operand first.
-/

namespace Reckoner
namespace Binary64

/-- The non-number that a pair of operands passes on, if one of them is a non-number. -/
def passedOn? (first second : Binary64) : Option Binary64 :=
  if first.isNaN then some first.quiet
  else if second.isNaN then some second.quiet
  else none

/-- The significand of a finite number with its sign. -/
def signedSignificand (number : Binary64) : Int :=
  if number.isNegative then -number.significand else number.significand

/-- The sum of two numbers that are not non-numbers. -/
def sum (first second : Binary64) : Binary64 :=
  if first.isInfinite then
    if second.isInfinite && first.isNegative != second.isNegative then invalid else first
  else if second.isInfinite then second
  else
    let unit := min first.exponent second.exponent
    let total :=
      first.signedSignificand * Nat.pow 2 (first.exponent - unit).toNat +
        second.signedSignificand * Nat.pow 2 (second.exponent - unit).toNat
    if total = 0 then zero (first.isNegative && second.isNegative)
    else roundScaled (total < 0) total.natAbs unit

/-- Addition. -/
def add (first second : Binary64) : Binary64 :=
  (passedOn? first second).getD (sum first second)

/-- Subtraction. -/
def sub (first second : Binary64) : Binary64 :=
  (passedOn? first second).getD (sum first second.neg)

/-- The product of two numbers that are not non-numbers. -/
def product (first second : Binary64) : Binary64 :=
  let negative := first.isNegative != second.isNegative
  if first.isInfinite || second.isInfinite then
    if first.isZero || second.isZero then invalid else infinity negative
  else
    roundScaled negative (first.significand * second.significand)
      (first.exponent + second.exponent)

/-- Multiplication. -/
def mul (first second : Binary64) : Binary64 :=
  (passedOn? first second).getD (product first second)

/-- The quotient of two numbers that are not non-numbers. -/
def quotient (first second : Binary64) : Binary64 :=
  let negative := first.isNegative != second.isNegative
  if first.isInfinite then
    if second.isInfinite then invalid else infinity negative
  else if second.isInfinite then zero negative
  else if second.isZero then
    if first.isZero then invalid else infinity negative
  else if first.isZero then zero negative
  else
    roundQuotient negative first.significand second.significand (first.exponent - second.exponent)

/-- Division. -/
def div (first second : Binary64) : Binary64 :=
  (passedOn? first second).getD (quotient first second)

/-- A number without its fractional part, and twice that part in units of `2 ^ exponent` together
with what one amounts to in these units. -/
def splitWhole (number : Binary64) : Nat × Nat × Nat :=
  let one := Nat.pow 2 (-number.exponent).toNat
  (number.significand / one, 2 * (number.significand % one), one)

/-- Make a number integral by a rule that says whether the integer toward zero is to be enlarged by
one; the rule is given the sign, twice the fractional part and what one amounts to.  Numbers without
a fractional part stay as they are, and so do infinities and non-numbers. -/
def toIntegral (enlarge : Bool → Nat → Nat → Bool) (number : Binary64) : Binary64 :=
  if !number.isFinite || 0 ≤ number.exponent then number
  else
    let (whole, twice, one) := number.splitWhole
    let size := if enlarge number.isNegative twice one then whole + 1 else whole
    roundScaled number.isNegative size 0

/-- The greatest integer that is not above a number. -/
def floor : Binary64 → Binary64 :=
  toIntegral (fun negative twice _ => negative && 0 < twice)

/-- The least integer that is not below a number. -/
def ceiling : Binary64 → Binary64 :=
  toIntegral (fun negative twice _ => !negative && 0 < twice)

/-- The integer nearest to a number, a tie going away from zero. -/
def nearest : Binary64 → Binary64 :=
  toIntegral (fun _ twice one => one ≤ twice)

/-- Whether a number is an integer. -/
def isIntegral (number : Binary64) : Bool :=
  number.isFinite && (0 ≤ number.exponent || number.splitWhole.2.1 == 0)

/-- The integer next to a finite number toward zero, as an integer. -/
def truncatedInt (number : Binary64) : Int :=
  let size :=
    if 0 ≤ number.exponent then number.significand * Nat.pow 2 number.exponent.toNat
    else number.splitWhole.1
  if number.isNegative then -size else size

/-- The truncated value in the range of 64-bit integers.  The upper end of the test is the number
nearest to the greatest such integer, which is one more; that one value is lowered. -/
def toInt64? (number : Binary64) : Option Int :=
  if number.isFinite then
    let whole := number.truncatedInt
    if -0x8000000000000000 ≤ whole ∧ whole ≤ 0x8000000000000000 then
      some (min whole 0x7fffffffffffffff)
    else none
  else none

/-- One. -/
def one : Binary64 := ⟨0x3ff0000000000000⟩

/-- Repeated squaring: `result` times `base` to the power of `exponent`. -/
def powerLoop (result base : Binary64) (exponent : Nat) : Binary64 :=
  let taken := if exponent % 2 = 1 then result.mul base else result
  if exponent / 2 = 0 then taken
  else powerLoop taken (base.mul base) (exponent / 2)
  termination_by exponent
  decreasing_by omega

/-- A power by repeated squaring; a negative exponent inverts the power of its size.  The first
power is the number itself, untouched. -/
def powInt (base : Binary64) (exponent : Int) : Binary64 :=
  if exponent = 1 then base
  else
    let power := powerLoop one base exponent.natAbs
    if exponent < 0 then one.div power else power

/-- Whether a number is an odd integer. -/
def isOdd (number : Binary64) : Bool :=
  number.isIntegral && number.truncatedInt % 2 != 0

/-- The power function of the platform, for exponents that are integers other than zero.  A
non-number is passed on as its square; an odd power of a negative base has the opposite sign of the
square. -/
def powReal (base exponent : Binary64) : Binary64 :=
  if base.isNaN then
    if base.isNegative && exponent.isOdd then base.quiet.neg else base.quiet
  else ⟨(Float.pow (Float.ofBits base.bits) (Float.ofBits exponent.bits)).toBits⟩

end Binary64
end Reckoner
