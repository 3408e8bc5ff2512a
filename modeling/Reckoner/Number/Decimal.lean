import Reckoner.Failure
import Reckoner.Number.Binary64.Shortest
import Reckoner.Number.Digits

/-!
# Decimals

Decimals of any size, `unscaled * 10 ^ (-scale)`.  One value has many forms, since the scale may be
larger than it needs to be and may be negative.  Sums, differences and products are exact; quotients
are rounded to `internalPrecision` digits.  Fewer digits are shown than are kept, so that the noise
of long computations stays out of what is shown.

A scale has 64 bits.  Calculations go on as if it had room without end; where a number is shown or
rounded for others, a scale that 64 bits do not hold comes back at the other end of their range.
-/

namespace Reckoner

/-- A decimal: an integer and the number of its digits that stand behind the point. -/
structure Decimal where
  unscaled : Int
  scale : Int
  deriving DecidableEq, Repr

namespace Decimal

/-- The number of significant digits that are shown. -/
def outputPrecision : Nat := 50

/-- The number of digits that are kept beyond the ones shown. -/
def guardDigits : Nat := 15

/-- The number of significant digits of a quotient. -/
def internalPrecision : Nat := outputPrecision + guardDigits

/-- The number of significant digits of the intermediate products of a power. -/
def powerPrecision : Nat := internalPrecision + guardDigits

/-- An integer as a decimal. -/
def ofInt (number : Int) : Decimal :=
  ⟨number, 0⟩

/-- Zero. -/
def zero : Decimal := ofInt 0

/-- One. -/
def one : Decimal := ofInt 1

/-- The number of digits of the unscaled integer. -/
def digits (number : Decimal) : Nat :=
  digitCount number.unscaled.natAbs

/-- The sign of a decimal. -/
def signum (number : Decimal) : Int :=
  number.unscaled.sign

/-- The unscaled integer at a scale that is not below the present one.  That of zero is zero however
far the scales are apart. -/
def unscaledAt (number : Decimal) (scale : Int) : Int :=
  if number.unscaled = 0 then 0 else number.unscaled * Nat.pow 10 (scale - number.scale).toNat

/-- The same value at a scale that is not below the present one. -/
def atScale (number : Decimal) (scale : Int) : Decimal :=
  ⟨number.unscaledAt scale, scale⟩

/-- Drop trailing zeros of an integer, at most `limit` of them, each lowering the scale by one. -/
def dropZeros : (limit : Nat) → (unscaled scale : Int) → Int × Int
  | 0, unscaled, scale => (unscaled, scale)
  | limit + 1, unscaled, scale =>
      if unscaled % 10 = 0 then dropZeros limit (unscaled / 10) (scale - 1) else (unscaled, scale)

/-- The form without trailing zeros. -/
def normalized (number : Decimal) : Decimal :=
  if number.unscaled = 0 then zero
  else
    let (unscaled, scale) := dropZeros number.digits number.unscaled number.scale
    ⟨unscaled, scale⟩

/-- A zero summand widens the scale of the other one by at most this much. -/
def zeroSummandDigits : Int := 15

/-- The sum with a zero at some scale. -/
def addZero (number : Decimal) (zeroScale : Int) : Decimal :=
  number.atScale (number.scale + min zeroSummandDigits (max 0 (zeroScale - number.scale)))

/-- Addition. -/
def add (first second : Decimal) : Decimal :=
  if second.unscaled = 0 then first.addZero second.scale
  else if first.unscaled = 0 then second.addZero first.scale
  else
    let scale := max first.scale second.scale
    ⟨first.unscaledAt scale + second.unscaledAt scale, scale⟩

/-- Subtraction. -/
def sub (first second : Decimal) : Decimal :=
  let scale := max first.scale second.scale
  ⟨first.unscaledAt scale - second.unscaledAt scale, scale⟩

/-- Whether a decimal is one, in a form with no more than 38 digits behind the point. -/
def isShortOne (number : Decimal) : Bool :=
  0 ≤ number.scale && number.scale ≤ 38 && number.unscaled == Nat.pow 10 number.scale.toNat

/-- Multiplication; a factor of one leaves the other factor without trailing zeros. -/
def mul (first second : Decimal) : Decimal :=
  if first.isShortOne then second.normalized
  else if second.isShortOne then first.normalized
  else ⟨first.unscaled * second.unscaled, first.scale + second.scale⟩

/-- The opposite number. -/
def neg (number : Decimal) : Decimal :=
  ⟨-number.unscaled, number.scale⟩

/-- The decimal rounded to a number of significant digits, a tie going away from zero. -/
def rounded (number : Decimal) (precision : Nat) : Decimal :=
  let digits := number.digits
  if digits ≤ precision then number
  else
    let dropped := digits - precision
    let divisor := Nat.pow 10 dropped
    let size := number.unscaled.natAbs
    let quotient := size / divisor
    let kept := if divisor ≤ 2 * (size % divisor) then quotient + 1 else quotient
    ⟨number.unscaled.sign * kept, number.scale - dropped⟩

/-- An integer as 64 bits hold it: beyond their range it comes back at the other end. -/
def held (number : Int) : Int :=
  (number + 0x8000000000000000) % 0x10000000000000000 - 0x8000000000000000

/-- Round to a number of significant digits; the scale is held in 64 bits. -/
def roundTo (number : Decimal) (precision : Nat) : Decimal :=
  let result := number.rounded precision
  ⟨result.unscaled, held result.scale⟩

/-- The quotient by a number that is not zero, to a number of significant digits.  The integer
quotient is taken to three digits more and then rounded; zeros behind the scale that the operands
suggest are dropped. -/
def quotient (first second : Decimal) (precision : Nat) : Decimal :=
  let preferred := first.scale - second.scale
  if first.unscaled = 0 then zero
  else
    let shift := precision + 3 + second.digits - first.digits
    let whole := (first.unscaled * Nat.pow 10 shift).tdiv second.unscaled
    let close := rounded ⟨whole, preferred + shift⟩ precision
    let (unscaled, scale) := dropZeros (close.scale - preferred).toNat close.unscaled close.scale
    ⟨unscaled, scale⟩

/-- Division. -/
def div (first second : Decimal) : Except Failure Decimal :=
  if second.unscaled = 0 then .error .divisionByZero
  else .ok (first.quotient second internalPrecision)

/-- The product rounded to the precision of powers. -/
def powerProduct (first second : Decimal) : Decimal :=
  rounded ⟨first.unscaled * second.unscaled, first.scale + second.scale⟩ powerPrecision

/-- Repeated squaring: `result` times `base` to the power of `exponent`. -/
def powerLoop (result base : Decimal) (exponent : Nat) : Decimal :=
  let taken := if exponent % 2 = 1 then result.powerProduct base else result
  if exponent / 2 = 0 then taken
  else powerLoop taken (base.powerProduct base) (exponent / 2)
  termination_by exponent
  decreasing_by omega

/-- An integer power; a negative exponent inverts the power of its size. -/
def powInt (base : Decimal) (exponent : Int) : Except Failure Decimal :=
  if exponent = 0 then .ok one
  else if exponent < 0 ∧ base.unscaled = 0 then .error .divisionByZero
  else
    let power := powerLoop one base exponent.natAbs
    if exponent < 0 then one.div power else .ok power

/-- Compare the sizes of two decimals that are not zero.  The one with more digits in front of the
point is larger; only if these are equally many are the digits compared. -/
def compareSizes (first second : Decimal) : Ordering :=
  let places := compare (first.digits - first.scale) (second.digits - second.scale)
  if places = .eq then
    let scale := max first.scale second.scale
    compare (first.unscaledAt scale).natAbs (second.unscaledAt scale).natAbs
  else places

/-- Compare two decimals by value. -/
def order (first second : Decimal) : Ordering :=
  let signs := compare first.signum second.signum
  if signs = .eq then
    if first.unscaled = 0 then .eq
    else if 0 < first.unscaled then first.compareSizes second
    else second.compareSizes first
  else signs

/-- Whether two decimals have the same value. -/
def equal (first second : Decimal) : Bool :=
  first.order second == .eq

/-- The greatest integer that is not above a decimal. -/
def floor (number : Decimal) : Decimal :=
  if number.scale ≤ 0 then number
  else ofInt (number.unscaled.fdiv (Nat.pow 10 number.scale.toNat))

/-- The least integer that is not below a decimal. -/
def ceiling (number : Decimal) : Decimal :=
  if number.scale ≤ 0 then number
  else ofInt (-((-number.unscaled).fdiv (Nat.pow 10 number.scale.toNat)))

/-- What a decimal has beyond its floor. -/
def fractionalPart (number : Decimal) : Decimal :=
  number.sub number.floor

/-- Whether a decimal is an integer. -/
def isIntegral (number : Decimal) : Bool :=
  number.scale ≤ 0 || number.unscaled % Nat.pow 10 number.scale.toNat == 0

/-- The integer next to a decimal toward zero. -/
def truncated (number : Decimal) : Int :=
  if number.scale ≤ 0 then number.unscaled * Nat.pow 10 (-number.scale).toNat
  else number.unscaled.tdiv (Nat.pow 10 number.scale.toNat)

/-- The truncated value, if it is in the range of 64-bit integers; one with more than 19 digits is
never worked out. -/
def toInt64? (number : Decimal) : Option Int :=
  if number.unscaled = 0 then some 0
  else if 19 < number.digits - number.scale then none
  else
    let whole := number.truncated
    if -0x8000000000000000 ≤ whole ∧ whole < 0x8000000000000000 then some whole else none

/-- One unit in the last of the digits that are kept internally. -/
def maxError (number : Decimal) : Decimal :=
  ⟨1, number.scale + internalPrecision - number.digits⟩

/-- The shortest decimal of a finite floating point number: `0.1` becomes one tenth exactly. -/
def ofFinite (number : Binary64) : Decimal :=
  let (digits, place) := number.shortest
  let size : Decimal :=
    if 0 ≤ place then ⟨digits * Nat.pow 10 place.toNat, 0⟩ else ⟨digits, -place⟩
  if number.isNegative then size.neg else size

/-- A floating point number as the decimal that its text denotes. -/
def ofBinary64 (number : Binary64) : Except Failure Decimal :=
  if number.isFinite then .ok (ofFinite number)
  else .error (.outsideDomain "promotion" (number.toText ++ " is not finite"))

/-- The floating point number nearest to a decimal. -/
def toBinary64 (number : Decimal) : Binary64 :=
  .ofDecimal (number.unscaled < 0) number.unscaled.natAbs (-number.scale)

end Decimal
end Reckoner
