/-!
# Decimal digits

Counting the decimal digits of a natural number, and rounding quotients.
-/

namespace Reckoner

/-- The least number of digits, from `digits` on, that is enough for a number; `power` is ten to the
power of `digits`. -/
def enoughDigits (number digits power : Nat) : Nat :=
  if number < power ∨ power = 0 then digits
  else enoughDigits number (digits + 1) (power * 10)
  termination_by number + 1 - power
  decreasing_by omega

/-- A number of digits that a number certainly exceeds.  The fraction lies just below the decimal
logarithm of two. -/
def digitsBelow (number : Nat) : Nat :=
  number.log2 * 643 / 2136

/-- The number of decimal digits of a number; zero has one. -/
def digitCount (number : Nat) : Nat :=
  let start := digitsBelow number + 1
  enoughDigits number start (Nat.pow 10 start)

/-- The decimal digits of a number. -/
def decimalDigits (number : Nat) : List Char :=
  Nat.toDigits 10 number

/-- The number of binary digits of a number; zero has none. -/
def bitLength (number : Nat) : Nat :=
  if number = 0 then 0 else number.log2 + 1

/-- The quotient rounded to the nearest integer, a tie going to the even neighbour. -/
def divNearestEven (numerator denominator : Nat) : Nat :=
  let quotient := numerator / denominator
  let twice := 2 * (numerator % denominator)
  if twice < denominator then quotient
  else if denominator < twice then quotient + 1
  else quotient + quotient % 2

end Reckoner
