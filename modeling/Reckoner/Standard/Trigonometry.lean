import Reckoner.Standard.Elementary

/-!
# Trigonometric functions

Angles are in radians.  The sine has a series; cosine, tangent and their reciprocals are expressed
through it.  Arcsine and arctangent have series of their own, behind reductions that keep the
arguments small.
-/

namespace Reckoner
namespace Trigonometry

open Elementary

/-- Half of pi. -/
def halfPi (library : Library) (kind : NumberKind) : Calc Number := do
  (← library.pi kind).div (.ofInt kind 2)

/-- An angle moved into one turn from zero. -/
def smallAngle (angle pi : Number) : Except Failure Number := do
  let turn ← pi.mul (.ofInt angle.kind 2)
  let size := angle.abs
  let turns := (← size.div turn).floor
  let rest ← size.sub (← turn.mul turns)
  if angle.signum < 0 then turn.sub rest else return rest

/-- The sine series under way: the power of the angle with its sign, the sum of the terms, and the
exponent of the last one. -/
structure SineSeries where
  power : Number
  sum : Number
  exponent : Nat
  deriving DecidableEq, Repr

/-- Add the next term of the sine series, the last one if it no longer counts. -/
def sineStep (multiplier maxError : Number) (series : SineSeries) :
    Calc (SineSeries ⊕ Number) := do
  Calc.check
  let exponent := series.exponent + 2
  let power := (← series.power.mul multiplier).trimmed
  let term ← power.div (← Calc.factorial multiplier.kind exponent)
  let sum ← series.sum.add term
  if ← exceeds term.abs maxError then return .inl ⟨power, sum, exponent⟩
  else return .inr sum

/-- The sine of an angle of at most a quarter turn. -/
def sineSeries (angle : Number) : Calc Number := do
  let multiplier := (← angle.mul angle).neg
  Run.repeatUntil (sineStep multiplier angle.maxError) ⟨angle, angle, 1⟩

/-- An angle within one turn folded to at most a quarter turn with the same sine. -/
def foldAngle (angle pi : Number) : Except Failure Number := do
  let kind := angle.kind
  if ← atLeast angle (← pi.mul (← Number.parse kind "1.5")) then
    angle.sub (← pi.mul (.ofInt kind 2))
  else if ← exceeds angle (← pi.div (.ofInt kind 2)) then pi.sub angle
  else return angle

/-- The sine. -/
def sin (library : Library) (angle : Number) : Calc Number := do
  let pi ← library.pi angle.kind
  let small ← smallAngle angle pi
  sineSeries (← foldAngle small pi)

/-- The cosine. -/
def cos (library : Library) (angle : Number) : Calc Number := do
  sin library (← (← halfPi library angle.kind).sub angle)

/-- The tangent. -/
def tan (library : Library) (angle : Number) : Calc Number := do
  let sine ← sin library angle
  sine.div (← cos library angle)

/-- The secant. -/
def sec (library : Library) (angle : Number) : Calc Number := do
  Number.div (.one angle.kind) (← cos library angle)

/-- The cosecant. -/
def csc (library : Library) (angle : Number) : Calc Number := do
  Number.div (.one angle.kind) (← sin library angle)

/-- The cotangent. -/
def cot (library : Library) (angle : Number) : Calc Number := do
  let cosine ← cos library angle
  cosine.div (← sin library angle)

/-- Whether the size of a number is at most one. -/
def withinUnit (number : Number) : Bool :=
  match number.abs.compare (.one number.kind) with
  | .ok order => order != .gt
  | .error _ => false

/-- Whether the size of a number is at least one. -/
def outsideUnit (number : Number) : Bool :=
  match number.abs.compare (.one number.kind) with
  | .ok order => order != .lt
  | .error _ => false

/-- The arcsine series under way: the last term, the sum of the terms, the power of the argument,
its coefficient, and the exponent of the last term. -/
structure ArcsineSeries where
  term : Number
  sum : Number
  power : Number
  coefficient : Number
  exponent : Int
  deriving DecidableEq, Repr

/-- Add the next term of the arcsine series, unless the last one no longer counts. -/
def arcsineStep (multiplier bound : Number) (series : ArcsineSeries) :
    Calc (ArcsineSeries ⊕ Number) := do
  if ← exceeds series.term.abs bound then
    Calc.check
    let kind := multiplier.kind
    let exponent := series.exponent + 2
    let power := (← series.power.mul multiplier).trimmed
    let odd ← series.coefficient.mul (.ofInt kind (exponent - 2))
    let coefficient ← odd.div (.ofInt kind (exponent - 1))
    let term ← (← power.mul coefficient).div (.ofInt kind exponent)
    let sum ← series.sum.add term
    return .inl ⟨term, sum, power, coefficient, exponent⟩
  else return .inr series.sum

/-- The arcsine of a small number. -/
def arcsineSeries (argument : Number) : Calc Number := do
  let one := Number.one argument.kind
  let multiplier ← argument.mul argument
  let bound ← argument.maxError.mul (← one.sub multiplier)
  Run.repeatUntil (arcsineStep multiplier bound) ⟨argument, argument, argument, one, 1⟩

/-- The arcsine, at most a number of reductions deep.  From four fifths on the series converges
slowly, and the arcsine of the complementary leg is subtracted from a quarter turn instead. -/
def arcsinWithin (library : Library) : (depth : Nat) → Number → Calc Number
  | 0, _ => Run.goOn
  | depth + 1, argument => do
      let kind := argument.kind
      if withinUnit argument then
        if ← atLeast argument.abs (← Number.parse kind "0.8") then
          let square ← argument.mul argument
          let leg ← sqrt (← (Number.one kind).sub square)
          let quarter ← halfPi library kind
          let angle ← quarter.sub (← arcsinWithin library depth leg)
          angle.mul (.ofInt kind argument.signum)
        else arcsineSeries argument
      else Run.fail (.outsideDomain "arcsin" "argument must be within [-1, 1]")

/-- The arcsine. -/
def arcsin (library : Library) (argument : Number) : Calc Number :=
  Run.withLimit (fun limit => arcsinWithin library limit argument)

/-- The arccosine. -/
def arccos (library : Library) (argument : Number) : Calc Number := do
  if withinUnit argument then
    let quarter ← halfPi library argument.kind
    quarter.sub (← arcsin library argument)
  else Run.fail (.outsideDomain "arccos" "argument must be within [-1, 1]")

/-- The arcsecant. -/
def arcsec (library : Library) (argument : Number) : Calc Number := do
  if outsideUnit argument then
    arccos library (← Number.div (.one argument.kind) argument)
  else Run.fail (.outsideDomain "arcsec" "argument must satisfy |x| >= 1")

/-- The arccosecant. -/
def arccsc (library : Library) (argument : Number) : Calc Number := do
  if outsideUnit argument then
    arcsin library (← Number.div (.one argument.kind) argument)
  else Run.fail (.outsideDomain "arccsc" "argument must satisfy |x| >= 1")

/-- The arctangent series under way: the power of the argument with its sign, the last term, the sum
of the terms, and the exponent of the last one. -/
structure ArctangentSeries where
  power : Number
  term : Number
  sum : Number
  exponent : Int
  deriving DecidableEq, Repr

/-- Add the next term of the arctangent series, unless the last one no longer counts. -/
def arctangentStep (multiplier maxError : Number) (series : ArctangentSeries) :
    Calc (ArctangentSeries ⊕ Number) := do
  if ← exceeds series.term.abs maxError then
    Calc.check
    let exponent := series.exponent + 2
    let power := (← series.power.mul multiplier).trimmed
    let term ← power.div (.ofInt multiplier.kind exponent)
    let sum ← series.sum.add term
    return .inl ⟨power, term, sum, exponent⟩
  else return .inr series.sum

/-- The arctangent of a small number. -/
def arctangentSeries (argument : Number) : Calc Number := do
  let multiplier := (← argument.mul argument).neg
  Run.repeatUntil (arctangentStep multiplier argument.maxError) ⟨argument, argument, argument, 1⟩

/-- The arctangent, at most a number of reductions deep.  The function is odd; above one it is a
quarter turn less the arctangent of the reciprocal; from nine tenths to one it is half the
arctangent of the tangent of the doubled angle. -/
def arctanWithin (library : Library) : (depth : Nat) → Number → Calc Number
  | 0, _ => Run.goOn
  | depth + 1, argument => do
      let kind := argument.kind
      let one := Number.one kind
      let two := Number.ofInt kind 2
      if argument.signum < 0 then
        return (← arctanWithin library depth argument.neg).neg
      else
        match ← argument.compare one with
        | .gt =>
            let quarter ← halfPi library kind
            quarter.sub (← arctanWithin library depth (← one.div argument))
        | .eq => (← library.pi kind).div (.ofInt kind 4)
        | .lt =>
            if ← atLeast argument (← Number.parse kind "0.9") then
              let double ← argument.mul two
              let doubled ← double.div (← one.sub (← argument.mul argument))
              (← arctanWithin library depth doubled).div two
            else arctangentSeries argument

/-- The arctangent. -/
def arctan (library : Library) (argument : Number) : Calc Number :=
  Run.withLimit (fun limit => arctanWithin library limit argument)

/-- The arccotangent. -/
def arccot (library : Library) (argument : Number) : Calc Number := do
  let quarter ← halfPi library argument.kind
  quarter.sub (← arctan library argument)

end Trigonometry
end Reckoner
