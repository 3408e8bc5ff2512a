import Reckoner.Number.Decimal

/-!
# Showing decimals

A decimal is rounded to the digits that are shown and written positionally, unless it is smaller
than a millionth or has more integer digits than are shown; then one digit stands in front of the
point and a power of ten behind.
-/

namespace Reckoner
namespace Decimal

/-- The least decimal exponent that is written positionally. -/
def leastPositional : Int := -6

/-- Digits and a power of ten, one digit in front of the point. -/
def scientific (written : List Char) (exponent : Int) : List Char :=
  let fraction := written.drop 1
  written.take 1 ++ (if fraction.isEmpty then [] else '.' :: fraction) ++ 'E' ::
    ((if 0 ≤ exponent then ['+'] else ['-']) ++ decimalDigits exponent.natAbs)

/-- Digits with a point so that `scale` of them stand behind it. -/
def positional (written : List Char) (scale : Int) : List Char :=
  if scale ≤ 0 then
    if written = ['0'] then written else written ++ List.replicate (-scale).toNat '0'
  else if scale < written.length then
    written.take (written.length - scale.toNat) ++
      '.' :: written.drop (written.length - scale.toNat)
  else '0' :: '.' :: (List.replicate (scale.toNat - written.length) '0' ++ written)

/-- The characters of a decimal, without rounding.  A power of ten is held in 64 bits; one that
they do not hold would be written in any case. -/
def chars (number : Decimal) : List Char :=
  let written := decimalDigits number.unscaled.natAbs
  let exponent : Int := written.length - 1 - number.scale
  let size :=
    if exponent < leastPositional ∨ (outputPrecision : Int) ≤ exponent then
      scientific written (held exponent)
    else positional written number.scale
  if number.unscaled < 0 then '-' :: size else size

/-- The text of a decimal, rounded to the digits that are shown. -/
def toText (number : Decimal) : String :=
  String.ofList (number.rounded outputPrecision).chars

end Decimal
end Reckoner
