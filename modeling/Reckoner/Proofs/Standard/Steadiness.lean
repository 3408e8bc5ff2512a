import Reckoner.Proofs.Evaluation.Caching
import Reckoner.Standard.Plugin

/-!
# The standard functions are steady

Every standard operator and function is composed of checks, of results that fail or not, of loops,
and of values that are kept once they have been worked out.  So it is steady under every property of
caches that says of the kept values where they come from.
-/

namespace Reckoner

open Run

namespace Elementary

/-! ## The logarithm of two -/

section

variable {sound : Caches → Prop}

theorem steady_lnTwoStep
    (kind : NumberKind)
    (maxError : Number)
    (series : LnTwoSeries) :
    Steady sound (lnTwoStep kind maxError series) := by
  unfold lnTwoStep
  refine (steady_lift _).bind fun counts => ?_
  split
  · refine steady_check.bind fun _ => ?_
    grind
  · exact steady_pure _

theorem steady_lnTwoSeries (kind : NumberKind) : Steady sound (lnTwoSeries kind) :=
  steady_repeatUntil (steady_lnTwoStep kind _) _

end

/-- A property of caches that says at least that the factorials and the logarithm of two are in
order, and does not mind when they are added. -/
structure Guards (sound : Caches → Prop) : Prop extends Caches.GuardsFactorials sound where
  recalls : ∀ caches kind value, sound caches → caches.constant? "ln2" kind = some value →
    Obtains (fun _ => True) (lnTwoSeries kind) value
  stores : ∀ caches kind value, sound caches → Obtains (fun _ => True) (lnTwoSeries kind) value →
    sound (caches.storeConstant "ln2" kind value)

variable {sound : Caches → Prop} (guards : Guards sound)

include guards

@[grind ←] theorem steady_factorial (kind : NumberKind) (number : Nat) :
    Steady sound (Calc.factorial kind number) :=
  Reckoner.steady_factorial guards.toGuardsFactorials kind number

omit guards in
/-- The logarithm of two is calculated once and then kept. -/
theorem lnTwo_eq_remember (kind : NumberKind) :
    lnTwo kind = remember (·.constant? "ln2" kind)
      (fun value caches => caches.storeConstant "ln2" kind value) (lnTwoSeries kind) := by
  unfold lnTwo Caches.memoize remember
  congr 1
  funext caches
  dsimp only
  cases caches.constant? "ln2" kind <;> rfl

/-- What is kept of the logarithm of two is the sum of its series. -/
theorem remembers_lnTwo (kind : NumberKind) :
    Remembers sound (fun _ => True) (·.constant? "ln2" kind)
      (fun value caches => caches.storeConstant "ln2" kind value) (lnTwoSeries kind) where
  steady := steady_lnTwoSeries kind
  weaker _ _ := trivial
  recalls caches value := guards.recalls caches kind value
  stores caches value := guards.stores caches kind value

/-- The logarithm of two is steady, whether it is kept already or not. -/
theorem steady_lnTwo (kind : NumberKind) : Steady sound (lnTwo kind) := by
  rw [lnTwo_eq_remember]
  exact (remembers_lnTwo guards kind).steady_remember (steady_lnTwoSeries kind)

/-! ## Exponential, logarithm and powers -/

omit guards in
theorem steady_halveStep (one two : Number) (current : Number × Nat) :
    Steady sound (halveStep one two current) := by
  unfold halveStep
  grind

theorem steady_expSeriesStep (argument : Number) (series : ExpSeries) :
    Steady sound (expSeriesStep argument series) := by
  unfold expSeriesStep
  refine steady_check.bind fun _ => ?_
  refine (steady_factorial guards _ _).bind fun factorial => ?_
  refine (steady_lift _).bind fun term => ?_
  refine (steady_lift _).bind fun sum => ?_
  grind

theorem steady_expSeries (argument : Number) : Steady sound (expSeries argument) := by
  unfold expSeries
  refine (steady_lift _).bind fun left => ?_
  exact steady_repeatUntil (steady_expSeriesStep guards argument) _

omit guards in
theorem steady_squareTimes (times : Nat) (number : Number) :
    Steady sound (squareTimes times number) := by
  induction times generalizing number with
  | zero => exact steady_pure (some number)
  | succ times hypothesis =>
      unfold squareTimes
      grind

theorem steady_expNonNegative (argument : Number) :
    Steady sound (expNonNegative argument) := by
  unfold expNonNegative
  refine (steady_repeatUntil (steady_halveStep _ _) _).bind fun reduction => ?_
  refine (steady_expSeries guards _).bind fun value => ?_
  exact steady_squareTimes _ _

/-- The exponential is steady: the caches hold nothing for it but factorials. -/
theorem steady_exp (argument : Number) : Steady sound (exp argument) := by
  unfold exp
  split
  next =>
    refine (steady_expNonNegative guards _).bind fun large => ?_
    split
    next => exact steady_lift _
    next => exact steady_pure _
  next =>
    refine (steady_expNonNegative guards _).bind fun value => ?_
    split
    next => exact steady_pure _
    next => exact steady_fail _

omit guards in
theorem steady_scaleStep (one two tenth : Number) (current : Number × Int) :
    Steady sound (scaleStep one two tenth current) := by
  unfold scaleStep
  grind

omit guards in
theorem steady_lnSeriesStep (distance maxError : Number) (series : LnSeries) :
    Steady sound (lnSeriesStep distance maxError series) := by
  unfold lnSeriesStep
  grind

omit guards in
theorem steady_lnNearOne (argument : Number) : Steady sound (lnNearOne argument) := by
  unfold lnNearOne
  refine (steady_lift _).bind fun distance => ?_
  exact steady_repeatUntil (steady_lnSeriesStep _ _) _

/-- The logarithm is steady: the caches hold nothing for it but the logarithm of two. -/
theorem steady_ln (argument : Number) : Steady sound (ln argument) := by
  unfold ln
  split
  next => exact steady_fail _
  next =>
    refine (steady_lift _).bind fun tenth => ?_
    refine (steady_repeatUntil (steady_scaleStep _ _ _) _).bind fun scaled => ?_
    refine (steady_lnNearOne _).bind fun series => ?_
    split
    next => exact steady_pure _
    next =>
      refine (steady_lnTwo guards _).bind fun two => ?_
      refine (steady_lift _).bind fun moved => ?_
      exact steady_lift _

@[grind ←] theorem steady_generalPower (base exponent : Number) :
    Steady sound (generalPower base exponent) := by
  unfold generalPower
  refine (steady_ln guards _).bind fun logarithm => ?_
  refine (steady_lift _).bind fun multiplied => ?_
  refine (steady_exp guards _).bind fun size => ?_
  split
  next => exact (steady_lift _).bind fun half => steady_pure _
  next => exact steady_pure _

@[grind ←] theorem steady_fractionalPower (base exponent : Number) :
    Steady sound (fractionalPower base exponent) := by
  unfold fractionalPower
  split
  next => exact steady_pure _
  next => exact steady_generalPower guards base exponent

/-- A power is steady, whichever way the exponent is treated. -/
theorem steady_power (base exponent : Number) : Steady sound (power base exponent) := by
  unfold power
  grind

theorem steady_sqrt (argument : Number) : Steady sound (sqrt argument) := by
  unfold sqrt
  split
  next => exact steady_fail _
  next => exact (steady_lift _).bind fun half => steady_power guards argument half

end Elementary

namespace Combinatorics

open Elementary

variable {sound : Caches → Prop} (guards : Guards sound)

include guards

theorem steady_factorial (number : Number) :
    Steady sound (Combinatorics.factorial number) := by
  unfold Combinatorics.factorial
  grind

omit guards in
@[grind ←] theorem steady_fallingStep (one : Number) (product : FallingProduct) :
    Steady sound (fallingStep one product) := by
  unfold fallingStep
  grind

omit guards in
@[grind ←] theorem steady_permutations (available chosen : Number) :
    Steady sound (permutations available chosen) := by
  unfold permutations
  grind

theorem steady_combinations (available chosen : Number) :
    Steady sound (combinations available chosen) := by
  unfold combinations
  grind

end Combinatorics

namespace Standard

open Elementary

variable {sound : Caches → Prop} (guards : Guards sound)

theorem steady_piStep (series : PiSeries) (index : Int) :
    Steady sound (piStep series index) := by
  unfold piStep
  refine steady_check.bind fun _ => ?_
  refine (steady_lift _).bind fun first => ?_
  refine (steady_lift _).bind fun second => ?_
  refine (steady_lift _).bind fun third => ?_
  grind

theorem steady_piTerms (count : Nat) (index : Int) (series : PiSeries) :
    Steady sound (piTerms count index series) := by
  induction count generalizing index series with
  | zero => exact steady_pure series
  | succ count hypothesis =>
      exact (steady_piStep series index).bind fun next => hypothesis (index + 1) next

include guards in
/-- The series of pi is steady. -/
theorem steady_precisePi : Steady sound precisePi := by
  unfold precisePi
  refine (steady_sqrt guards _).bind fun root => ?_
  refine (steady_lift _).bind fun numerator => ?_
  refine (steady_piTerms _ _ _).bind fun series => ?_
  exact steady_lift _

end Standard

namespace Trigonometry

open Elementary

/-- Pi is steady. -/
def SteadyPi (sound : Caches → Prop) (library : Library) : Prop :=
  ∀ kind, Steady sound (library.pi kind)

variable {sound : Caches → Prop} {library : Library}

/-- Half of pi is steady if pi is. -/
theorem SteadyPi.halfPi
    (steadyPi : SteadyPi sound library)
    (kind : NumberKind) :
    Steady sound (halfPi library kind) :=
  (steadyPi kind).bind fun _ => steady_lift _

section

variable (guards : Guards sound)

include guards

theorem steady_sineStep (multiplier maxError : Number) (series : SineSeries) :
    Steady sound (sineStep multiplier maxError series) := by
  unfold sineStep
  grind

theorem steady_sineSeries (angle : Number) : Steady sound (sineSeries angle) := by
  unfold sineSeries
  refine (steady_lift _).bind fun square => ?_
  exact steady_repeatUntil (steady_sineStep guards _ _) _

variable (steadyPi : SteadyPi sound library)

include steadyPi

/-- The sine is steady if pi is. -/
theorem steady_sin (angle : Number) : Steady sound (sin library angle) := by
  unfold sin
  refine (steadyPi _).bind fun pi => ?_
  refine (steady_lift _).bind fun small => ?_
  refine (steady_lift _).bind fun folded => ?_
  exact steady_sineSeries guards folded

theorem steady_cos (angle : Number) : Steady sound (cos library angle) := by
  unfold cos
  refine (steadyPi.halfPi _).bind fun quarter => ?_
  refine (steady_lift _).bind fun complement => ?_
  exact steady_sin guards steadyPi complement

theorem steady_tan (angle : Number) : Steady sound (tan library angle) := by
  unfold tan
  refine (steady_sin guards steadyPi angle).bind fun sine => ?_
  refine (steady_cos guards steadyPi angle).bind fun cosine => ?_
  exact steady_lift _

theorem steady_sec (angle : Number) : Steady sound (sec library angle) := by
  unfold sec
  exact (steady_cos guards steadyPi angle).bind fun cosine => steady_lift _

theorem steady_csc (angle : Number) : Steady sound (csc library angle) := by
  unfold csc
  exact (steady_sin guards steadyPi angle).bind fun sine => steady_lift _

theorem steady_cot (angle : Number) : Steady sound (cot library angle) := by
  unfold cot
  refine (steady_cos guards steadyPi angle).bind fun cosine => ?_
  refine (steady_sin guards steadyPi angle).bind fun sine => ?_
  exact steady_lift _

end

theorem steady_arcsineStep (multiplier bound : Number) (series : ArcsineSeries) :
    Steady sound (arcsineStep multiplier bound series) := by
  unfold arcsineStep
  refine (steady_lift _).bind fun counts => ?_
  split
  · refine steady_check.bind fun _ => ?_
    grind
  · exact steady_pure _

theorem steady_arcsineSeries (argument : Number) :
    Steady sound (arcsineSeries argument) := by
  unfold arcsineSeries
  refine (steady_lift _).bind fun multiplier => ?_
  refine (steady_lift _).bind fun rest => ?_
  refine (steady_lift _).bind fun bound => ?_
  exact steady_repeatUntil (steady_arcsineStep _ _) _

theorem steady_arctangentStep (multiplier maxError : Number) (series : ArctangentSeries) :
    Steady sound (arctangentStep multiplier maxError series) := by
  unfold arctangentStep
  grind

theorem steady_arctangentSeries (argument : Number) :
    Steady sound (arctangentSeries argument) := by
  unfold arctangentSeries
  refine (steady_lift _).bind fun square => ?_
  exact steady_repeatUntil (steady_arctangentStep _ _) _

variable (guards : Guards sound) (steadyPi : SteadyPi sound library)

include steadyPi

include guards in
/-- The arcsine is steady at every depth. -/
theorem steadyAt_arcsinWithin (depth : Nat) (argument : Number) :
    SteadyAt sound (fun depth => arcsinWithin library depth argument) depth := by
  induction depth generalizing argument with
  | zero => exact steadyAt_goOn rfl
  | succ depth hypothesis =>
      refine SteadyAt.succ (fun _ => rfl) ?_
      simp only [arcsinWithin]
      by_cases within : withinUnit argument = true
      · simp only [within, ↓reduceIte]
        refine SteadyAt.bind ((steady_lift _).at depth) fun limit => ?_
        refine SteadyAt.bind ((steady_lift _).at depth) fun large => ?_
        cases large with
        | true =>
            simp only [↓reduceIte]
            refine SteadyAt.bind ((steady_lift _).at depth) fun square => ?_
            refine SteadyAt.bind ((steady_lift _).at depth) fun rest => ?_
            refine SteadyAt.bind ((steady_sqrt guards _).at depth) fun leg => ?_
            refine SteadyAt.bind ((steadyPi.halfPi _).at depth) fun quarter => ?_
            refine SteadyAt.bind (hypothesis leg) fun complement => ?_
            exact ((steady_lift _).bind fun angle => steady_lift _).at depth
        | false => exact (steady_arcsineSeries argument).at depth
      · simp only [within, Bool.false_eq_true, ↓reduceIte]
        exact (steady_fail _).at depth

include guards in
theorem steady_arcsin (argument : Number) : Steady sound (arcsin library argument) :=
  steady_withLimit fun depth => steadyAt_arcsinWithin guards steadyPi depth argument

include guards in
theorem steady_arccos (argument : Number) : Steady sound (arccos library argument) := by
  unfold arccos
  split
  next =>
    refine (steadyPi.halfPi _).bind fun quarter => ?_
    refine (steady_arcsin guards steadyPi argument).bind fun angle => ?_
    exact steady_lift _
  next => exact steady_fail _

include guards in
theorem steady_arcsec (argument : Number) : Steady sound (arcsec library argument) := by
  unfold arcsec
  split
  next => exact (steady_lift _).bind fun reciprocal => steady_arccos guards steadyPi reciprocal
  next => exact steady_fail _

include guards in
theorem steady_arccsc (argument : Number) : Steady sound (arccsc library argument) := by
  unfold arccsc
  split
  next => exact (steady_lift _).bind fun reciprocal => steady_arcsin guards steadyPi reciprocal
  next => exact steady_fail _

/-- The arctangent is steady at every depth. -/
theorem steadyAt_arctanWithin (depth : Nat) (argument : Number) :
    SteadyAt sound (fun depth => arctanWithin library depth argument) depth := by
  induction depth generalizing argument with
  | zero => exact steadyAt_goOn rfl
  | succ depth hypothesis =>
      refine SteadyAt.succ (fun _ => rfl) ?_
      simp only [arctanWithin]
      by_cases negative : argument.signum < 0
      · simp only [negative, ↓reduceIte]
        exact SteadyAt.bind (hypothesis argument.neg) fun angle => (steady_pure _).at depth
      · simp only [negative, ↓reduceIte]
        refine SteadyAt.bind ((steady_lift _).at depth) fun order => ?_
        cases order with
        | gt =>
            refine SteadyAt.bind ((steadyPi.halfPi _).at depth) fun quarter => ?_
            refine SteadyAt.bind ((steady_lift _).at depth) fun reciprocal => ?_
            refine SteadyAt.bind (hypothesis reciprocal) fun angle => ?_
            exact (steady_lift _).at depth
        | eq => exact ((steadyPi _).bind fun pi => steady_lift _).at depth
        | lt =>
            refine SteadyAt.bind ((steady_lift _).at depth) fun limit => ?_
            refine SteadyAt.bind ((steady_lift _).at depth) fun large => ?_
            cases large with
            | true =>
                simp only [↓reduceIte]
                refine SteadyAt.bind ((steady_lift _).at depth) fun double => ?_
                refine SteadyAt.bind ((steady_lift _).at depth) fun square => ?_
                refine SteadyAt.bind ((steady_lift _).at depth) fun rest => ?_
                refine SteadyAt.bind ((steady_lift _).at depth) fun doubled => ?_
                refine SteadyAt.bind (hypothesis doubled) fun angle => ?_
                exact (steady_lift _).at depth
            | false => exact (steady_arctangentSeries argument).at depth

theorem steady_arctan (argument : Number) : Steady sound (arctan library argument) :=
  steady_withLimit fun depth => steadyAt_arctanWithin steadyPi depth argument

theorem steady_arccot (argument : Number) : Steady sound (arccot library argument) := by
  unfold arccot
  refine (steadyPi.halfPi _).bind fun quarter => ?_
  refine (steady_arctan steadyPi argument).bind fun angle => ?_
  exact steady_lift _

end Trigonometry
end Reckoner
