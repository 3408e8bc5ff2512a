import Reckoner.Number.Binary64
import Reckoner.Number.Decimal

/-!
# Number literals

A literal is an optional minus sign and digits with at most one point among, before or behind them;
at least one digit is required.
-/

namespace Reckoner

/-- A literal that has been read: its sign, its digits as a number, and how many of them stand
behind the point. -/
structure Literal where
  negative : Bool
  digits : Nat
  scale : Nat
  deriving DecidableEq, Repr

namespace Literal

/-- Whether a character is one of the ten digits. -/
def isDigit (character : Char) : Bool :=
  '0' ≤ character && character ≤ '9'

/-- The number that digits denote. -/
def digitsValue (digits : List Char) : Nat :=
  digits.foldl (fun value digit => 10 * value + (digit.toNat - '0'.toNat)) 0

/-- The part of a text in front of its first point, and the part behind it. -/
def splitPoint : List Char → List Char × List Char
  | [] => ([], [])
  | '.' :: rest => ([], rest)
  | character :: rest =>
      let (whole, fraction) := splitPoint rest
      (character :: whole, fraction)

/-- Read a literal without a sign. -/
def readSize? (negative : Bool) (text : List Char) : Option Literal :=
  let (whole, fraction) := splitPoint text
  let digits := whole ++ fraction
  if !digits.isEmpty && digits.all isDigit then
    some ⟨negative, digitsValue digits, fraction.length⟩
  else none

/-- Read a literal. -/
def read? : List Char → Option Literal
  | '-' :: text => readSize? true text
  | text => readSize? false text

/-- The decimal that a literal denotes. -/
def toDecimal (literal : Literal) : Decimal :=
  ⟨if literal.negative then -literal.digits else literal.digits, literal.scale⟩

/-- The floating point number nearest to what a literal denotes. -/
def toBinary64 (literal : Literal) : Binary64 :=
  .ofDecimal literal.negative literal.digits (-literal.scale)

end Literal
end Reckoner
