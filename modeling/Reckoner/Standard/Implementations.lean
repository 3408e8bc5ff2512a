import Reckoner.Evaluation.Promotion
import Reckoner.Standard.Elementary

/-!
# The standard implementations of numbers

`naive` computes with floating point numbers, `precise` with decimals; a floating point number
becomes the decimal that its shortest text denotes.
-/

namespace Reckoner
namespace Standard

open Elementary

/-- The name of the floating point implementation. -/
def naiveName : String := "naive"

/-- The name of the decimal implementation. -/
def preciseName : String := "precise"

/-- A number as a precise one. -/
def toPrecise : Conversion
  | .fast value => (Decimal.ofBinary64 value).map .precise
  | .precise value => .ok (.precise value)

/-- The state of the series of pi: the two factors of its terms, the power that divides them, and
the sum. -/
structure PiSeries where
  multiplier : Number
  linear : Number
  divisor : Number
  sum : Number
  deriving DecidableEq, Repr

/-- Add the term of an index to the series of pi. -/
def piStep (series : PiSeries) (index : Int) : Calc PiSeries := do
  Calc.check
  let int := Number.ofInt .precise
  let first ← series.multiplier.mul (int (12 * index + 2))
  let second ← first.mul (int (12 * index + 6))
  let third ← second.mul (int (12 * index + 10))
  let multiplier ← third.div (int ((index + 1) * (index + 1) * (index + 1)))
  let linear ← series.linear.add (int 545140134)
  let divisor ← series.divisor.mul (int (-262537412640768000))
  let sum ← series.sum.add (← (← multiplier.mul linear).div divisor)
  return ⟨multiplier, linear, divisor, sum⟩

/-- Add `count` terms to the series of pi, from that of `index` on. -/
def piTerms : (count : Nat) → (index : Int) → PiSeries → Calc PiSeries
  | 0, _, series => pure series
  | count + 1, index, series => do piTerms count (index + 1) (← piStep series index)

/-- Pi as `426880 * sqrt 10005` divided by a series of which every term gives about fourteen
digits. -/
def precisePi : Calc Number := do
  let int := Number.ofInt .precise
  let root ← sqrt (int 10005)
  let numerator ← root.mul (int 426880)
  let terms := numerator.maxPrecision / 13 + 1
  let series ← piTerms terms 0 ⟨int 1, int 13591409, int 1, int 13591409⟩
  numerator.div series.sum

/-- The implementation by floating point numbers. -/
def naive : NumberImplementation :=
  ⟨.fast, 0, Table.empty.insert preciseName toPrecise, pure (.fast Binary64.pi)⟩

/-- The implementation by decimals. -/
def precise : NumberImplementation :=
  ⟨.precise, 1, .empty, precisePi⟩

end Standard
end Reckoner
