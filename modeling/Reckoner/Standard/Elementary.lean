import Reckoner.Evaluation.Calculation

/-!
# Exponential, logarithm and powers

Every series stops once its terms no longer count at the size of the argument, so that one
definition serves both representations and each gets the accuracy that it declares.  The powers
inside a series are trimmed, so that exact products stay bounded.
-/

namespace Reckoner
namespace Elementary

/-- Whether the first number is greater than the second. -/
def exceeds (first second : Number) : Except Failure Bool :=
  (first.compare second).map (· == .gt)

/-- Whether the first number is at least the second. -/
def atLeast (first second : Number) : Except Failure Bool :=
  (first.compare second).map (· != .lt)

/-! ## The exponential function -/

/-- Halve an argument that exceeds one, counting. -/
def halveStep (one two : Number) : Number × Nat → Calc (Number × Nat ⊕ Number × Nat)
  | (reduced, halvings) => do
      if ← exceeds reduced one then
        Calc.check
        let half ← reduced.div two
        return .inl (half, halvings + 1)
      else return .inr (reduced, halvings)

/-- The exponential series under way: the sum of its terms up to the power `index`, the next power
of the argument, and the two sides of the bound on what is still missing. -/
structure ExpSeries where
  sum : Number
  numerator : Number
  left : Number
  right : Number
  index : Nat
  deriving DecidableEq, Repr

/-- Add the next term of the exponential series.  The remainder is bounded by three times the next
term, so the series ends when `3 * x ^ (n + 1) ≤ error * (n + 1)!`. -/
def expSeriesStep (argument : Number) (series : ExpSeries) : Calc (ExpSeries ⊕ Number) := do
  Calc.check
  let kind := argument.kind
  let factorial ← Calc.factorial kind (series.index + 1)
  let sum ← series.sum.add (← series.numerator.div factorial)
  let index := series.index + 1
  let numerator := (← series.numerator.mul argument).trimmed
  let left := (← series.left.mul argument).trimmed
  let right := (← series.right.mul (.ofInt kind (index + 1))).trimmed
  if ← exceeds left right then return .inl ⟨sum, numerator, left, right, index⟩
  else return .inr sum

/-- The exponential of a number between zero and one. -/
def expSeries (argument : Number) : Calc Number := do
  let kind := argument.kind
  let left ← argument.mul (.ofInt kind 3)
  Run.repeatUntil (expSeriesStep argument) ⟨.one kind, argument, left, argument.maxError, 0⟩

/-- Square a number some times; `none` when it leaves the range of its representation. -/
def squareTimes : (times : Nat) → Number → Calc (Option Number)
  | 0, number => pure (some number)
  | times + 1, number => do
      Calc.check
      let square := (← number.mul number).trimmed
      -- once out of range, further squares would not come back
      if square.isFinite then squareTimes times square else return none

/-- The exponential of a number that is not negative; `none` when it leaves the range.  The argument
is halved until it is at most one, and the result is squared as many times. -/
def expNonNegative (argument : Number) : Calc (Option Number) := do
  let kind := argument.kind
  let (reduced, halvings) ←
    Run.repeatUntil (halveStep (.one kind) (.ofInt kind 2)) (argument, 0)
  squareTimes halvings (← expSeries reduced)

/-- The exponential function.  A negative argument goes through the reciprocal, and so down to zero
where the reciprocal leaves the range. -/
def exp (argument : Number) : Calc Number := do
  let kind := argument.kind
  if argument.signum < 0 then
    match ← expNonNegative argument.neg with
    | some large => Number.div (.one kind) large
    | none => pure (.zero kind)
  else
    match ← expNonNegative argument with
    | some value => pure value
    | none => Run.fail (.outsideDomain "exp" ("e^" ++ argument.display ++ " overflows"))

/-! ## The logarithm -/

/-- Move an argument toward one by a factor of two, counting halvings; it stops within a tenth of
one or when it crosses one. -/
def scaleStep (one two tenth : Number) : Number × Int → Calc (Number × Int ⊕ Number × Int)
  | (value, halvings) => do
      let distance ← value.sub one
      if ← atLeast distance.abs tenth then
        Calc.check
        if 0 < distance.signum then
          let half ← value.div two
          if (← half.sub one).signum ≤ 0 then return .inr (half, halvings + 1)
          else return .inl (half, halvings + 1)
        else
          let double ← value.mul two
          if 0 ≤ (← double.sub one).signum then return .inr (double, halvings - 1)
          else return .inl (double, halvings - 1)
      else return .inr (value, halvings)

/-- The logarithm series under way: the power of the distance from one, the term that it gives, the
sum of the terms, and the index of the last one. -/
structure LnSeries where
  numerator : Number
  term : Number
  sum : Number
  index : Int
  deriving DecidableEq, Repr

/-- Add the next term of the logarithm series, unless the last one no longer counts. -/
def lnSeriesStep (distance maxError : Number) (series : LnSeries) :
    Calc (LnSeries ⊕ Number) := do
  if ← exceeds series.term.abs maxError then
    Calc.check
    let index := series.index + 1
    let numerator := (← series.numerator.mul distance).neg.trimmed
    let term ← numerator.div (.ofInt distance.kind index)
    let sum ← series.sum.add term
    return .inl ⟨numerator, term, sum, index⟩
  else return .inr series.sum

/-- The logarithm of a number between zero and two. -/
def lnNearOne (argument : Number) : Calc Number := do
  let distance ← argument.sub (.one argument.kind)
  Run.repeatUntil (lnSeriesStep distance argument.maxError) ⟨distance, distance, distance, 1⟩

/-- The series of the logarithm of two under way: powers of a third and of a quarter, the sum, and
the index of the last term. -/
structure LnTwoSeries where
  thirds : Number
  quarters : Number
  sum : Number
  index : Int
  deriving DecidableEq, Repr

/-- Add the next term of the series of the logarithm of two, unless the power of a third, which
bounds what is missing, no longer counts. -/
def lnTwoStep (kind : NumberKind) (maxError : Number) (series : LnTwoSeries) :
    Calc (LnTwoSeries ⊕ Number) := do
  if ← exceeds series.thirds maxError then
    Calc.check
    let index := series.index + 1
    let thirds ← series.thirds.div (.ofInt kind 3)
    let quarters ← series.quarters.div (.ofInt kind 4)
    let reciprocal ← Number.div (.one kind) (.ofInt kind index)
    let sum ← series.sum.add (← (← thirds.add quarters).mul reciprocal)
    return .inl ⟨thirds, quarters, sum, index⟩
  else return .inr series.sum

/-- The logarithm of two, the sum over `n` of `(3 ^ (-n) + 4 ^ (-n)) / n`. -/
def lnTwoSeries (kind : NumberKind) : Calc Number :=
  Run.repeatUntil (lnTwoStep kind (Number.one kind).maxError)
    ⟨.one kind, .one kind, .zero kind, 0⟩

/-- The logarithm of two, worked out at its first use. -/
def lnTwo (kind : NumberKind) : Calc Number :=
  Caches.memoize "ln2" kind (lnTwoSeries kind)

/-- The natural logarithm.  The argument is scaled by powers of two toward one, and the logarithm of
two is added for every halving. -/
def ln (argument : Number) : Calc Number := do
  let kind := argument.kind
  if argument.signum ≤ 0 then
    Run.fail (.outsideDomain "ln" "argument must be positive")
  else
    let tenth ← Number.parse kind "0.1"
    let (value, halvings) ←
      Run.repeatUntil (scaleStep (.one kind) (.ofInt kind 2) tenth) (argument, 0)
    let series ← lnNearOne value
    if halvings = 0 then pure series
    else
      let scaled ← (← lnTwo kind).mul (.ofInt kind halvings)
      scaled.add series

/-! ## Powers -/

/-- A power by way of the logarithm of the size of the base, which is not zero.  A negative base
stands under an integral exponent alone and gives its sign to the powers that are odd. -/
def generalPower (base exponent : Number) : Calc Number := do
  let size ← exp (← (← ln base.abs).mul exponent)
  if base.signum < 0 then
    let half ← exponent.div (.ofInt base.kind 2)
    pure (if half.isIntegral then size else size.neg)
  else pure size

/-- The power to an exponent between zero and one. -/
def fractionalPower (base exponent : Number) : Calc Number :=
  if exponent.isZero then pure (.one base.kind) else generalPower base exponent

/-- Whether an exponent is at least one in size and below the greatest integer of 32 bits. -/
def isIntegerSized (kind : NumberKind) (exponent : Number) : Except Failure Bool := do
  let size := exponent.abs
  if ← atLeast size (.one kind) then exceeds (.ofInt kind 0x7fffffff) size
  else return false

/-- The power function.  Where the exponent or the base is integral, the whole part of the exponent
is taken by repeated multiplication and only the rest by way of the logarithm. -/
def power (base exponent : Number) : Calc Number := do
  let kind := base.kind
  if base.isZero && exponent.isZero then
    Run.fail (.outsideDomain "^" "0^0 is undefined")
  else if base.signum < 0 && !exponent.isIntegral then
    Run.fail (.outsideDomain "^" "a negative base needs an integral exponent")
  else if base.isZero then pure (.zero kind)
  else if exponent.isZero then pure (.one kind)
  else if (← isIntegerSized kind exponent) && (exponent.isIntegral || base.isIntegral) then
    match exponent.floor.toInt64? with
    | none => Run.fail (.outsideDomain "^" "exponent is out of range")
    | some whole =>
        let rest ← fractionalPower base exponent.fractionalPart
        (← base.powInt whole).mul rest
  else generalPower base exponent

/-- The square root. -/
def sqrt (argument : Number) : Calc Number := do
  if argument.signum < 0 then
    Run.fail (.outsideDomain "sqrt" "argument must not be negative")
  else power argument (← Number.parse argument.kind "0.5")

end Elementary
end Reckoner
