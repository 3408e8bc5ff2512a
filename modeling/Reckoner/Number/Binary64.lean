import Reckoner.Number.Digits

/-!
# Binary floating point numbers

The 64-bit format of binary floating point numbers: a sign, eleven bits of exponent and fifty-two of
fraction.  A finite number is `± significand * 2 ^ exponent`.  Read without the sign, the bits of a
number rise with its size, and the infinities lie just above all finite numbers.
-/

namespace Reckoner

/-- A binary floating point number, given by its bits. -/
structure Binary64 where
  bits : UInt64
  deriving DecidableEq, Repr

namespace Binary64

/-- The weight of the sign bit. -/
def signWeight : Nat := 0x8000000000000000

/-- The weight of the lowest bit of the exponent. -/
def exponentWeight : Nat := 0x10000000000000

/-- The bits of the positive infinity. -/
def infinityMagnitude : Nat := 2047 * exponentWeight

/-- The exponent of the smallest positive number. -/
def leastExponent : Int := -1074

/-- The bits of a number without its sign. -/
def magnitude (number : Binary64) : Nat :=
  number.bits.toNat % signWeight

/-- Whether the sign bit is set. -/
def isNegative (number : Binary64) : Bool :=
  signWeight ≤ number.bits.toNat

/-- Whether a number is not a number. -/
def isNaN (number : Binary64) : Bool :=
  infinityMagnitude < number.magnitude

/-- Whether a number is one of the infinities. -/
def isInfinite (number : Binary64) : Bool :=
  number.magnitude = infinityMagnitude

/-- Whether a number is neither an infinity nor a non-number. -/
def isFinite (number : Binary64) : Bool :=
  number.magnitude < infinityMagnitude

/-- Whether a number is one of the two zeros. -/
def isZero (number : Binary64) : Bool :=
  number.magnitude = 0

/-- The exponent bits of a number. -/
def exponentField (number : Binary64) : Nat :=
  number.magnitude / exponentWeight

/-- The fraction bits of a number. -/
def fractionField (number : Binary64) : Nat :=
  number.magnitude % exponentWeight

/-- The integer that a finite number is a multiple of a power of two of. -/
def significand (number : Binary64) : Nat :=
  if number.exponentField = 0 then number.fractionField
  else number.fractionField + exponentWeight

/-- The power of two that the significand of a finite number is multiplied by. -/
def exponent (number : Binary64) : Int :=
  ((max number.exponentField 1 : Nat) : Int) - 1 + leastExponent

/-- The number of a sign and a magnitude. -/
def ofMagnitude (negative : Bool) (magnitude : Nat) : Binary64 :=
  ⟨UInt64.ofNat (if negative then signWeight + magnitude else magnitude)⟩

/-- The zero of a sign. -/
def zero (negative : Bool) : Binary64 :=
  ofMagnitude negative 0

/-- The infinity of a sign. -/
def infinity (negative : Bool) : Binary64 :=
  ofMagnitude negative infinityMagnitude

/-- The non-number that an operation without a result gives; its sign bit is set. -/
def invalid : Binary64 :=
  ⟨0xfff8000000000000⟩

/-- A non-number as an operation passes it on. -/
def quiet (number : Binary64) : Binary64 :=
  ⟨number.bits ||| 0x0008000000000000⟩

/-- The same number with the opposite sign, also of a non-number. -/
def neg (number : Binary64) : Binary64 :=
  ⟨number.bits ^^^ 0x8000000000000000⟩

/-- The number nearest to `± significand * 2 ^ exponent`, a tie going to the even significand; too
large a value becomes an infinity. -/
def roundScaled (negative : Bool) (significand : Nat) (exponent : Int) : Binary64 :=
  if significand = 0 then zero negative
  else
    let unit := max (bitLength significand + exponent - 53) leastExponent
    let rounded :=
      if unit ≤ exponent then significand * Nat.pow 2 (exponent - unit).toNat
      else divNearestEven significand (Nat.pow 2 (unit - exponent).toNat)
    let magnitude := (unit - leastExponent).toNat * exponentWeight + rounded
    ofMagnitude negative (min magnitude infinityMagnitude)

/-- The number nearest to `± numerator / denominator * 2 ^ exponent`.  The quotient is taken to more
digits than a number has, and a last digit tells whether there are more. -/
def roundQuotient (negative : Bool) (numerator denominator : Nat) (exponent : Int) : Binary64 :=
  let shift := bitLength denominator + 55 - bitLength numerator
  let scaled := numerator * Nat.pow 2 shift
  let sticky := if scaled % denominator = 0 then 0 else 1
  roundScaled negative (2 * (scaled / denominator) + sticky) (exponent - shift - 1)

/-- The number nearest to an integer. -/
def ofInt (number : Int) : Binary64 :=
  roundScaled (number < 0) number.natAbs 0

/-- The number nearest to `± digits * 10 ^ exponent`.  Values far outside the range are settled by
their number of digits. -/
def ofDecimal (negative : Bool) (digits : Nat) (exponent : Int) : Binary64 :=
  let places := digitCount digits + exponent
  if digits = 0 ∨ places < -400 then zero negative
  else if 400 < places then infinity negative
  else if 0 ≤ exponent then roundScaled negative (digits * Nat.pow 10 exponent.toNat) 0
  else roundQuotient negative digits (Nat.pow 10 (-exponent).toNat) 0

/-- The sign of a number; zeros and non-numbers have none. -/
def signum (number : Binary64) : Int :=
  if number.isNaN ∨ number.isZero then 0 else if number.isNegative then -1 else 1

/-- The place of a number in the total order: the negative non-numbers come first and the positive
ones last, and the negative zero comes before the positive one. -/
def rank (number : Binary64) : Int :=
  if number.isNegative then -number.magnitude - 1 else number.magnitude

/-- Numbers are compared in the total order. -/
def order (first second : Binary64) : Ordering :=
  compare first.rank second.rank

/-- Numeric equality: the zeros are equal and a non-number equals nothing. -/
def equal (first second : Binary64) : Bool :=
  !first.isNaN && !second.isNaN &&
    ((first.isZero && second.isZero) || first.bits == second.bits)

end Binary64
end Reckoner
