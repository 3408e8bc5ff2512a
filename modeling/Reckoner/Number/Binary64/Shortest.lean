import Reckoner.Number.Binary64

/-!
# Shortest decimals

The decimal with the fewest digits among those that lie closer to a finite number than to any other,
and nearest to the number among these.
-/

namespace Reckoner
namespace Binary64

/-- The decimals that read back as one positive number: the number, the least and the greatest of
the reals that round to it, all in units of `2 ^ exponent`, and whether these two round to it as
well. -/
structure Neighbourhood where
  low : Nat
  value : Nat
  high : Nat
  exponent : Int
  closed : Bool
  deriving DecidableEq, Repr

/-- The neighbourhood of a positive finite number.  Below a power of two the numbers lie twice as
close as above it. -/
def neighbourhood (number : Binary64) : Neighbourhood :=
  let significand := number.significand
  let below := if number.fractionField = 0 ∧ 1 < number.exponentField then 1 else 2
  ⟨4 * significand - below, 4 * significand, 4 * significand + 2, number.exponent - 2,
    significand % 2 == 0⟩

namespace Neighbourhood

/-- What a number of units amounts to when ten to the power of `place` is made an integer. -/
def scaled (neighbours : Neighbourhood) (place : Int) (units : Nat) : Nat :=
  units * Nat.pow 2 neighbours.exponent.toNat * Nat.pow 10 (-place).toNat

/-- Ten to the power of `place` on the scale of `scaled`. -/
def grid (neighbours : Neighbourhood) (place : Int) : Nat :=
  Nat.pow 10 place.toNat * Nat.pow 2 (-neighbours.exponent).toNat

/-- Whether a multiple of ten to the power of `place` reads back as the number. -/
def readsBack (neighbours : Neighbourhood) (place : Int) (digits : Nat) : Bool :=
  let low := neighbours.scaled place neighbours.low
  let high := neighbours.scaled place neighbours.high
  let candidate := digits * neighbours.grid place
  if neighbours.closed then low ≤ candidate && candidate ≤ high
  else low < candidate && candidate < high

/-- The multiple of ten to the power of `place` that is nearest to the number among those that read
back as it; of two equally near ones the greater. -/
def onGrid? (neighbours : Neighbourhood) (place : Int) : Option Nat :=
  let grid := neighbours.grid place
  let value := neighbours.scaled place neighbours.value
  let below := value / grid
  let twice := 2 * (value % grid)
  match neighbours.readsBack place below, neighbours.readsBack place (below + 1) with
  | true, true => some (if twice < grid then below else below + 1)
  | true, false => some below
  | false, true => some (below + 1)
  | false, false => none

/-- Search the grids from a coarse one to finer ones. -/
def search (neighbours : Neighbourhood) (place : Int) : (steps : Nat) → Nat × Int
  | 0 => (neighbours.scaled place neighbours.value / neighbours.grid place, place)
  | steps + 1 =>
      match neighbours.onGrid? place with
      | some digits => (digits, place)
      | none => neighbours.search (place - 1) steps

/-- A power of ten that is certainly too coarse a grid for the number. -/
def coarsePlace (neighbours : Neighbourhood) : Int :=
  (bitLength neighbours.value + neighbours.exponent) * 30103 / 100000 + 2

end Neighbourhood

/-- Drop the trailing zeros of digits that are multiplied by a power of ten. -/
def dropZeros (digits : Nat) (place : Int) : Nat × Int :=
  if digits ≠ 0 ∧ digits % 10 = 0 then dropZeros (digits / 10) (place + 1) else (digits, place)
  termination_by digits
  decreasing_by omega

/-- The digits of the shortest decimal of a finite number without its sign, and the power of ten
that they are multiplied by. -/
def shortest (number : Binary64) : Nat × Int :=
  if number.isZero then (0, 0)
  else
    let neighbours := number.neighbourhood
    let (digits, place) := neighbours.search neighbours.coarsePlace 40
    dropZeros digits place

/-- Digits times a power of ten in positional notation. -/
def positional (digits : Nat) (place : Int) : List Char :=
  let written := decimalDigits digits
  if 0 ≤ place then written ++ List.replicate place.toNat '0'
  else
    let fraction := (-place).toNat
    if fraction < written.length then
      written.take (written.length - fraction) ++
        '.' :: written.drop (written.length - fraction)
    else '0' :: '.' :: (List.replicate (fraction - written.length) '0' ++ written)

/-- The text of a number: its shortest decimal, never with an exponent. -/
def toText (number : Binary64) : String :=
  if number.isNaN then "NaN"
  else
    let size :=
      if number.isInfinite then "inf"
      else if number.isZero then "0"
      else String.ofList (positional number.shortest.1 number.shortest.2)
    if number.isNegative then "-" ++ size else size

end Binary64
end Reckoner
