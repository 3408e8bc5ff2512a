import Reckoner.Standard.Elementary

/-!
# Counting

Factorials, ordered selections and unordered selections.
-/

namespace Reckoner
namespace Combinatorics

open Elementary

/-- A number as a natural number of at most 63 bits. -/
def toNat? (number : Number) : Option Nat :=
  match number.toInt64? with
  | some whole => if 0 ≤ whole then some whole.toNat else none
  | none => none

/-- The factorial of an integral number. -/
def factorial (number : Number) : Calc Number :=
  match toNat? number with
  | some count => Calc.factorial number.kind count
  | none => Run.fail (.outsideDomain "!" (number.display ++ " is out of range"))

/-- A falling product under way: the product, the next factor, and how many factors are missing. -/
structure FallingProduct where
  total : Number
  factor : Number
  remaining : Number
  deriving DecidableEq, Repr

/-- Multiply the next factor of a falling product. -/
def fallingStep (one : Number) (product : FallingProduct) :
    Calc (FallingProduct ⊕ Number) := do
  if 0 < product.remaining.signum then
    Calc.check
    let total ← product.total.mul product.factor
    let factor ← product.factor.sub one
    let remaining ← product.remaining.sub one
    return .inl ⟨total, factor, remaining⟩
  else return .inr product.total

/-- The number of ordered selections of `chosen` out of `available` things, the falling product `n
(n - 1) ... (n - k + 1)`; there are none when more are chosen than available or one is negative. -/
def permutations (available chosen : Number) : Calc Number := do
  let kind := available.kind
  if (← exceeds chosen available) || available.signum < 0 || chosen.signum < 0 ||
      (available.isZero && !chosen.isZero) then
    pure (.zero kind)
  else Run.repeatUntil (fallingStep (.one kind)) ⟨.one kind, available, chosen⟩

/-- The number of unordered selections: the ordered ones divided by the factorial. -/
def combinations (available chosen : Number) : Calc Number := do
  let selections ← permutations available chosen
  if selections.isZero then pure selections
  else
    match toNat? chosen with
    | some count => selections.div (← Calc.factorial available.kind count)
    | none => Run.fail (.outsideDomain "nCr" (chosen.display ++ " is out of range"))

end Combinatorics
end Reckoner
