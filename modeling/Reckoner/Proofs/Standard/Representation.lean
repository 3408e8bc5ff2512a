import Reckoner.Proofs.Evaluation.Representation
import Reckoner.Standard.Plugin

/-!
# The standard functions stay in one representation

Every constant that a standard operator or function uses is made in the representation of an
operand, and so is every value that it finds in the caches.  The data of a loop are of a
representation if their numbers are.
-/

namespace Reckoner

open Run Calc Number

variable {kind : NumberKind}

namespace Elementary

@[grind ←] theorem ofKind_exceeds
    {first second : Number}
    (same : first.kind = kind)
    (other : second.kind = kind) :
    OfKind kind (exceeds first second) :=
  ofKind_map (ofKind_compare same other) fun _ _ => trivial

@[grind ←] theorem ofKind_atLeast
    {first second : Number}
    (same : first.kind = kind)
    (other : second.kind = kind) :
    OfKind kind (atLeast first second) :=
  ofKind_map (ofKind_compare same other) fun _ _ => trivial

/-! ## The exponential function -/

theorem staysIn_halveStep
    {one two : Number}
    (ofOne : one.kind = kind)
    (ofTwo : two.kind = kind)
    {current : Number × Nat}
    (ofCurrent : OfKind kind current) :
    StaysIn kind (halveStep one two current) := by
  unfold halveStep
  grind

instance : Numeric ExpSeries :=
  ⟨fun kind series => series.sum.kind = kind ∧ series.numerator.kind = kind ∧
    series.left.kind = kind ∧ series.right.kind = kind⟩

@[grind =] theorem ofKind_expSeries {series : ExpSeries} :
    OfKind kind series ↔ series.sum.kind = kind ∧ series.numerator.kind = kind ∧
      series.left.kind = kind ∧ series.right.kind = kind := Iff.rfl

theorem staysIn_expSeriesStep
    {argument : Number}
    (ofArgument : argument.kind = kind)
    {series : ExpSeries}
    (ofSeries : OfKind kind series) :
    StaysIn kind (expSeriesStep argument series) := by
  obtain ⟨ofSum, ofNumerator, ofLeft, ofRight⟩ := ofSeries
  unfold expSeriesStep
  rw [ofArgument]
  refine staysIn_check.bind fun _ _ => ?_
  refine (staysIn_factorial _).bind fun factorial ofFactorial => ?_
  refine (staysIn_lift (ofKind_div ofNumerator ofFactorial)).bind fun term ofTerm => ?_
  refine (staysIn_lift (ofKind_add ofSum ofTerm)).bind fun sum ofNext => ?_
  grind

theorem staysIn_expSeries {argument : Number} (ofArgument : argument.kind = kind) :
    StaysIn kind (expSeries argument) := by
  unfold expSeries
  rw [ofArgument]
  refine (staysIn_lift (ofKind_mul ofArgument (kind_ofInt kind 3))).bind fun left ofLeft => ?_
  refine staysIn_repeatUntil (fun _ ofSeries => staysIn_expSeriesStep ofArgument ofSeries) ?_
  exact ⟨kind_one kind, ofArgument, ofLeft, (kind_maxError argument).trans ofArgument⟩

theorem staysIn_squareTimes
    (times : Nat)
    {number : Number}
    (ofNumber : number.kind = kind) :
    StaysIn kind (squareTimes times number) := by
  induction times generalizing number with
  | zero => exact staysIn_pure ((ofKind_some number).2 ofNumber)
  | succ times hypothesis =>
      unfold squareTimes
      grind

/-- The reduction, the series and the squarings of the exponential stay in the representation of
the argument. -/
theorem staysIn_expNonNegative {argument : Number} (ofArgument : argument.kind = kind) :
    StaysIn kind (expNonNegative argument) := by
  unfold expNonNegative
  rw [ofArgument]
  refine (staysIn_repeatUntil (fun _ ofCurrent => staysIn_halveStep (kind_one kind)
    (kind_ofInt kind 2) ofCurrent) ⟨ofArgument, trivial⟩).bind fun reduction ofReduction => ?_
  refine (staysIn_expSeries ofReduction.1).bind fun value ofValue => ?_
  exact staysIn_squareTimes _ ofValue

/-- The exponential stays in the representation of its argument, also by way of a reciprocal. -/
theorem staysIn_exp {argument : Number} (ofArgument : argument.kind = kind) :
    StaysIn kind (exp argument) := by
  unfold exp
  rw [ofArgument]
  split
  next =>
    refine (staysIn_expNonNegative ((kind_neg argument).trans ofArgument)).bind
      fun result ofResult => ?_
    split
    next large => exact staysIn_lift (ofKind_div (kind_one kind) (ofResult large rfl))
    next => exact staysIn_pure (kind_zero kind)
  next =>
    refine (staysIn_expNonNegative ofArgument).bind fun result ofResult => ?_
    split
    next value => exact staysIn_pure (ofResult value rfl)
    next => exact staysIn_outsideDomain _ _

/-! ## The logarithm -/

theorem staysIn_scaleStep
    {one two tenth : Number}
    (ofOne : one.kind = kind)
    (ofTwo : two.kind = kind)
    (ofTenth : tenth.kind = kind)
    {current : Number × Int}
    (ofCurrent : OfKind kind current) :
    StaysIn kind (scaleStep one two tenth current) := by
  obtain ⟨ofValue, _⟩ := ofCurrent
  unfold scaleStep
  refine (staysIn_lift (ofKind_sub ofValue ofOne)).bind fun distance ofDistance => ?_
  refine (staysIn_lift (ofKind_atLeast (by grind) ofTenth)).bind fun far _ => ?_
  split
  next =>
    refine staysIn_check.bind fun _ _ => ?_
    grind
  next => exact staysIn_pure ⟨ofValue, trivial⟩

instance : Numeric LnSeries :=
  ⟨fun kind series => series.numerator.kind = kind ∧ series.term.kind = kind ∧
    series.sum.kind = kind⟩

@[grind =] theorem ofKind_lnSeries {series : LnSeries} :
    OfKind kind series ↔ series.numerator.kind = kind ∧ series.term.kind = kind ∧
      series.sum.kind = kind := Iff.rfl

theorem staysIn_lnSeriesStep
    {distance maxError : Number}
    (ofDistance : distance.kind = kind)
    (ofError : maxError.kind = kind)
    {series : LnSeries}
    (ofSeries : OfKind kind series) :
    StaysIn kind (lnSeriesStep distance maxError series) := by
  unfold lnSeriesStep
  grind

theorem staysIn_lnNearOne {argument : Number} (ofArgument : argument.kind = kind) :
    StaysIn kind (lnNearOne argument) := by
  unfold lnNearOne
  rw [ofArgument]
  refine (staysIn_lift (ofKind_sub ofArgument (kind_one kind))).bind fun distance ofDistance => ?_
  exact staysIn_repeatUntil (fun _ ofSeries => staysIn_lnSeriesStep ofDistance
    ((kind_maxError argument).trans ofArgument) ofSeries) ⟨ofDistance, ofDistance, ofDistance⟩

instance : Numeric LnTwoSeries :=
  ⟨fun kind series => series.thirds.kind = kind ∧ series.quarters.kind = kind ∧
    series.sum.kind = kind⟩

@[grind =] theorem ofKind_lnTwoSeries {series : LnTwoSeries} :
    OfKind kind series ↔ series.thirds.kind = kind ∧ series.quarters.kind = kind ∧
      series.sum.kind = kind := Iff.rfl

theorem staysIn_lnTwoStep
    {maxError : Number}
    (ofError : maxError.kind = kind)
    {series : LnTwoSeries}
    (ofSeries : OfKind kind series) :
    StaysIn kind (lnTwoStep kind maxError series) := by
  obtain ⟨ofThirds, ofQuarters, ofSum⟩ := ofSeries
  unfold lnTwoStep
  refine (staysIn_lift (ofKind_exceeds ofThirds ofError)).bind fun counts _ => ?_
  split
  next =>
    refine staysIn_check.bind fun _ _ => ?_
    refine (staysIn_lift (ofKind_div ofThirds (kind_ofInt kind 3))).bind fun thirds ofThird => ?_
    grind
  next => exact staysIn_pure ofSum

theorem staysIn_lnTwoSeries (kind : NumberKind) : StaysIn kind (lnTwoSeries kind) := by
  unfold lnTwoSeries
  exact staysIn_repeatUntil (fun _ ofSeries => staysIn_lnTwoStep
    ((kind_maxError _).trans (kind_one kind)) ofSeries)
      ⟨kind_one kind, kind_one kind, kind_zero kind⟩

/-- The logarithm of two stays in a representation, whether it is kept already or not. -/
theorem staysIn_lnTwo (kind : NumberKind) : StaysIn kind (lnTwo kind) :=
  staysIn_memoize "ln2" (staysIn_lnTwoSeries kind)

/-- The logarithm stays in the representation of its argument. -/
theorem staysIn_ln {argument : Number} (ofArgument : argument.kind = kind) :
    StaysIn kind (ln argument) := by
  unfold ln
  rw [ofArgument]
  split
  next => exact staysIn_outsideDomain _ _
  next =>
    refine (staysIn_lift (ofKind_parse kind (by decide +kernel))).bind fun tenth ofTenth => ?_
    refine (staysIn_repeatUntil (fun _ ofCurrent => staysIn_scaleStep (kind_one kind)
      (kind_ofInt kind 2) ofTenth ofCurrent) ⟨ofArgument, trivial⟩).bind fun scaled ofScaled => ?_
    refine (staysIn_lnNearOne ofScaled.1).bind fun series ofSeries => ?_
    split
    next => exact staysIn_pure ofSeries
    next =>
      refine (staysIn_lnTwo kind).bind fun two ofTwo => ?_
      refine (staysIn_lift (ofKind_mul ofTwo (kind_ofInt kind _))).bind fun moved ofMoved => ?_
      exact staysIn_lift (ofKind_add ofMoved ofSeries)

/-! ## Powers -/

@[grind ←] theorem staysIn_generalPower
    {base exponent : Number}
    (ofBase : base.kind = kind)
    (ofExponent : exponent.kind = kind) :
    StaysIn kind (generalPower base exponent) := by
  unfold generalPower
  refine (staysIn_ln ((kind_abs base).trans ofBase)).bind fun logarithm ofLogarithm => ?_
  refine (staysIn_lift (ofKind_mul ofLogarithm ofExponent)).bind fun product ofProduct => ?_
  refine (staysIn_exp ofProduct).bind fun size ofSize => ?_
  rw [ofBase]
  split
  next =>
    refine (staysIn_lift (ofKind_div ofExponent (kind_ofInt kind 2))).bind fun half _ => ?_
    split
    next => exact staysIn_pure ofSize
    next => exact staysIn_pure ((kind_neg size).trans ofSize)
  next => exact staysIn_pure ofSize

@[grind ←] theorem staysIn_fractionalPower
    {base exponent : Number}
    (ofBase : base.kind = kind)
    (ofExponent : exponent.kind = kind) :
    StaysIn kind (fractionalPower base exponent) := by
  unfold fractionalPower
  split
  next => exact staysIn_pure ((kind_one _).trans ofBase)
  next => exact staysIn_generalPower ofBase ofExponent

@[grind ←] theorem ofKind_isIntegerSized
    {exponent : Number}
    (ofExponent : exponent.kind = kind) :
    OfKind kind (isIntegerSized kind exponent) := by
  unfold isIntegerSized
  grind

/-- A power stays in the representation of its operands, whichever way the exponent is treated.
-/
theorem staysIn_power
    {base exponent : Number}
    (ofBase : base.kind = kind)
    (ofExponent : exponent.kind = kind) :
    StaysIn kind (power base exponent) := by
  unfold power
  grind

theorem staysIn_sqrt {argument : Number} (ofArgument : argument.kind = kind) :
    StaysIn kind (sqrt argument) := by
  unfold sqrt
  rw [ofArgument]
  split
  next => exact staysIn_outsideDomain _ _
  next =>
    exact (staysIn_lift (ofKind_parse kind (by decide +kernel))).bind fun half ofHalf =>
      staysIn_power ofArgument ofHalf

end Elementary

namespace Combinatorics

open Elementary

/-- A factorial stays in the representation of its argument. -/
theorem staysIn_factorial {number : Number} (ofNumber : number.kind = kind) :
    StaysIn kind (Combinatorics.factorial number) := by
  unfold Combinatorics.factorial
  grind

instance : Numeric FallingProduct :=
  ⟨fun kind product => product.total.kind = kind ∧ product.factor.kind = kind ∧
    product.remaining.kind = kind⟩

@[grind =] theorem ofKind_fallingProduct {product : FallingProduct} :
    OfKind kind product ↔ product.total.kind = kind ∧ product.factor.kind = kind ∧
      product.remaining.kind = kind := Iff.rfl

@[grind ←] theorem staysIn_fallingStep
    {one : Number}
    (ofOne : one.kind = kind)
    {product : FallingProduct}
    (ofProduct : OfKind kind product) :
    StaysIn kind (fallingStep one product) := by
  unfold fallingStep
  grind

@[grind ←] theorem staysIn_permutations
    {available chosen : Number}
    (ofAvailable : available.kind = kind)
    (ofChosen : chosen.kind = kind) :
    StaysIn kind (permutations available chosen) := by
  unfold permutations
  grind

/-- Combinations stay in the representation of their operands. -/
theorem staysIn_combinations
    {available chosen : Number}
    (ofAvailable : available.kind = kind)
    (ofChosen : chosen.kind = kind) :
    StaysIn kind (combinations available chosen) := by
  unfold combinations
  grind

end Combinatorics

namespace Standard

open Elementary

/-! ## Pi -/

theorem ofKind_toPrecise (number : Number) : OfKind .precise (toPrecise number) := by
  cases number with
  | fast value =>
      simp only [toPrecise, Decimal.ofBinary64]
      split
      next => rfl
      next => exact (by simp : (Failure.outsideDomain _ _).IsInternal)
  | precise value => rfl

instance : Numeric PiSeries :=
  ⟨fun kind series => series.multiplier.kind = kind ∧ series.linear.kind = kind ∧
    series.divisor.kind = kind ∧ series.sum.kind = kind⟩

@[grind =] theorem ofKind_piSeries {series : PiSeries} :
    OfKind kind series ↔ series.multiplier.kind = kind ∧ series.linear.kind = kind ∧
      series.divisor.kind = kind ∧ series.sum.kind = kind := Iff.rfl

theorem staysIn_piStep
    {series : PiSeries}
    (ofSeries : OfKind .precise series)
    (index : Int) :
    StaysIn .precise (piStep series index) := by
  obtain ⟨ofMultiplier, ofLinear, ofDivisor, ofSum⟩ := ofSeries
  unfold piStep
  refine staysIn_check.bind fun _ _ => ?_
  refine (staysIn_lift (ofKind_mul ofMultiplier (kind_ofInt _ _))).bind fun first ofFirst => ?_
  refine (staysIn_lift (ofKind_mul ofFirst (kind_ofInt _ _))).bind fun second ofSecond => ?_
  refine (staysIn_lift (ofKind_mul ofSecond (kind_ofInt _ _))).bind fun third ofThird => ?_
  refine (staysIn_lift (ofKind_div ofThird (kind_ofInt _ _))).bind fun next ofNext => ?_
  grind

theorem staysIn_piTerms
    (count : Nat)
    (index : Int)
    {series : PiSeries}
    (ofSeries : OfKind .precise series) :
    StaysIn .precise (piTerms count index series) := by
  induction count generalizing index series with
  | zero => exact staysIn_pure ofSeries
  | succ count hypothesis =>
      exact (staysIn_piStep ofSeries index).bind fun next ofNext => hypothesis (index + 1) ofNext

/-- The series of pi is precise throughout. -/
theorem staysIn_precisePi : StaysIn .precise precisePi := by
  unfold precisePi
  refine (staysIn_sqrt (kind_ofInt _ _)).bind fun root ofRoot => ?_
  refine (staysIn_lift (ofKind_mul ofRoot (kind_ofInt _ _))).bind fun numerator ofNumerator => ?_
  refine (staysIn_piTerms _ _ ⟨rfl, rfl, rfl, rfl⟩).bind fun series ofSeries => ?_
  exact staysIn_lift (ofKind_div ofNumerator ofSeries.2.2.2)

end Standard

namespace Trigonometry

open Elementary

/-! ## Sine and its relatives -/

theorem ofKind_smallAngle
    {angle pi : Number}
    (ofAngle : angle.kind = kind)
    (ofPi : pi.kind = kind) :
    OfKind kind (smallAngle angle pi) := by
  unfold smallAngle
  grind

theorem ofKind_foldAngle
    {angle pi : Number}
    (ofAngle : angle.kind = kind)
    (ofPi : pi.kind = kind) :
    OfKind kind (foldAngle angle pi) := by
  have threeHalves : OfKind kind (Number.parse kind "1.5") := ofKind_parse kind (by decide +kernel)
  unfold foldAngle
  grind

instance : Numeric SineSeries :=
  ⟨fun kind series => series.power.kind = kind ∧ series.sum.kind = kind⟩

@[grind =] theorem ofKind_sineSeries {series : SineSeries} :
    OfKind kind series ↔ series.power.kind = kind ∧ series.sum.kind = kind := Iff.rfl

theorem staysIn_sineStep
    {multiplier maxError : Number}
    (ofMultiplier : multiplier.kind = kind)
    (ofError : maxError.kind = kind)
    {series : SineSeries}
    (ofSeries : OfKind kind series) :
    StaysIn kind (sineStep multiplier maxError series) := by
  obtain ⟨ofPower, ofSum⟩ := ofSeries
  unfold sineStep
  rw [ofMultiplier]
  refine staysIn_check.bind fun _ _ => ?_
  refine (staysIn_lift (ofKind_mul ofPower ofMultiplier)).bind fun power ofNext => ?_
  refine (staysIn_factorial _).bind fun factorial ofFactorial => ?_
  grind

theorem staysIn_sineSeries {angle : Number} (ofAngle : angle.kind = kind) :
    StaysIn kind (sineSeries angle) := by
  unfold sineSeries
  refine (staysIn_lift (ofKind_mul ofAngle ofAngle)).bind fun square ofSquare => ?_
  exact staysIn_repeatUntil (fun _ ofSeries => staysIn_sineStep ((kind_neg square).trans ofSquare)
    ((kind_maxError angle).trans ofAngle) ofSeries) ⟨ofAngle, ofAngle⟩

instance : Numeric ArcsineSeries :=
  ⟨fun kind series => series.term.kind = kind ∧ series.sum.kind = kind ∧
    series.power.kind = kind ∧ series.coefficient.kind = kind⟩

@[grind =] theorem ofKind_arcsineSeries {series : ArcsineSeries} :
    OfKind kind series ↔ series.term.kind = kind ∧ series.sum.kind = kind ∧
      series.power.kind = kind ∧ series.coefficient.kind = kind := Iff.rfl

theorem staysIn_arcsineStep
    {multiplier bound : Number}
    (ofMultiplier : multiplier.kind = kind)
    (ofBound : bound.kind = kind)
    {series : ArcsineSeries}
    (ofSeries : OfKind kind series) :
    StaysIn kind (arcsineStep multiplier bound series) := by
  obtain ⟨ofTerm, ofSum, ofPower, ofCoefficient⟩ := ofSeries
  unfold arcsineStep
  rw [ofMultiplier]
  refine (staysIn_lift (ofKind_exceeds (by grind) ofBound)).bind fun counts _ => ?_
  split
  next =>
    refine staysIn_check.bind fun _ _ => ?_
    refine (staysIn_lift (ofKind_mul ofPower ofMultiplier)).bind fun power ofNext => ?_
    refine (staysIn_lift (ofKind_mul ofCoefficient (kind_ofInt _ _))).bind fun odd ofOdd => ?_
    grind
  next => exact staysIn_pure ofSum

theorem staysIn_arcsineSeries {argument : Number} (ofArgument : argument.kind = kind) :
    StaysIn kind (arcsineSeries argument) := by
  unfold arcsineSeries
  rw [ofArgument]
  refine (staysIn_lift (ofKind_mul ofArgument ofArgument)).bind fun multiplier ofMultiplier => ?_
  refine (staysIn_lift (ofKind_sub (kind_one kind) ofMultiplier)).bind fun rest ofRest => ?_
  refine (staysIn_lift (ofKind_mul ((kind_maxError argument).trans ofArgument) ofRest)).bind
    fun bound ofBound => ?_
  exact staysIn_repeatUntil (fun _ ofSeries => staysIn_arcsineStep ofMultiplier ofBound ofSeries)
    ⟨ofArgument, ofArgument, ofArgument, kind_one kind⟩

instance : Numeric ArctangentSeries :=
  ⟨fun kind series => series.power.kind = kind ∧ series.term.kind = kind ∧
    series.sum.kind = kind⟩

@[grind =] theorem ofKind_arctangentSeries {series : ArctangentSeries} :
    OfKind kind series ↔ series.power.kind = kind ∧ series.term.kind = kind ∧
      series.sum.kind = kind := Iff.rfl

theorem staysIn_arctangentStep
    {multiplier maxError : Number}
    (ofMultiplier : multiplier.kind = kind)
    (ofError : maxError.kind = kind)
    {series : ArctangentSeries}
    (ofSeries : OfKind kind series) :
    StaysIn kind (arctangentStep multiplier maxError series) := by
  unfold arctangentStep
  grind

theorem staysIn_arctangentSeries
    {argument : Number}
    (ofArgument : argument.kind = kind) :
    StaysIn kind (arctangentSeries argument) := by
  unfold arctangentSeries
  refine (staysIn_lift (ofKind_mul ofArgument ofArgument)).bind fun square ofSquare => ?_
  exact staysIn_repeatUntil (fun _ ofSeries => staysIn_arctangentStep
    ((kind_neg square).trans ofSquare) ((kind_maxError argument).trans ofArgument) ofSeries)
    ⟨ofArgument, ofArgument, ofArgument⟩

section

variable {library : Library} (ofPi : StaysIn kind (library.pi kind)) {argument : Number}
  (ofArgument : argument.kind = kind)

include ofPi

theorem staysIn_halfPi : StaysIn kind (halfPi library kind) := by
  unfold halfPi
  grind

include ofArgument

/-- The sine stays in the representation of its argument if pi does. -/
theorem staysIn_sin : StaysIn kind (sin library argument) := by
  unfold sin
  rw [ofArgument]
  refine ofPi.bind fun pi ofPi => ?_
  refine (staysIn_lift (ofKind_smallAngle ofArgument ofPi)).bind fun small ofSmall => ?_
  refine (staysIn_lift (ofKind_foldAngle ofSmall ofPi)).bind fun folded ofFolded => ?_
  exact staysIn_sineSeries ofFolded

theorem staysIn_cos : StaysIn kind (cos library argument) := by
  unfold cos
  rw [ofArgument]
  refine (staysIn_halfPi ofPi).bind fun quarter ofQuarter => ?_
  refine (staysIn_lift (ofKind_sub ofQuarter ofArgument)).bind fun complement ofComplement => ?_
  exact staysIn_sin ofPi ofComplement

theorem staysIn_tan : StaysIn kind (tan library argument) := by
  unfold tan
  refine (staysIn_sin ofPi ofArgument).bind fun sine ofSine => ?_
  refine (staysIn_cos ofPi ofArgument).bind fun cosine ofCosine => ?_
  exact staysIn_lift (ofKind_div ofSine ofCosine)

theorem staysIn_sec : StaysIn kind (sec library argument) := by
  unfold sec
  refine (staysIn_cos ofPi ofArgument).bind fun cosine ofCosine => ?_
  exact staysIn_lift (ofKind_div ((kind_one _).trans ofArgument) ofCosine)

theorem staysIn_csc : StaysIn kind (csc library argument) := by
  unfold csc
  refine (staysIn_sin ofPi ofArgument).bind fun sine ofSine => ?_
  exact staysIn_lift (ofKind_div ((kind_one _).trans ofArgument) ofSine)

theorem staysIn_cot : StaysIn kind (cot library argument) := by
  unfold cot
  refine (staysIn_cos ofPi ofArgument).bind fun cosine ofCosine => ?_
  refine (staysIn_sin ofPi ofArgument).bind fun sine ofSine => ?_
  exact staysIn_lift (ofKind_div ofCosine ofSine)

/-! ## Their inverses -/

omit ofArgument in
/-- The arcsine stays in the representation of its argument at every depth. -/
theorem staysIn_arcsinWithin
    (depth : Nat)
    {argument : Number}
    (ofArgument : argument.kind = kind) :
    StaysIn kind (arcsinWithin library depth argument) := by
  induction depth generalizing argument with
  | zero => exact staysIn_goOn
  | succ depth hypothesis =>
      unfold arcsinWithin
      rw [ofArgument]
      split
      next =>
        refine (staysIn_lift (ofKind_parse kind (by decide +kernel))).bind fun bound ofBound => ?_
        refine (staysIn_lift (ofKind_atLeast (by grind) ofBound)).bind fun large _ => ?_
        split
        next =>
          refine (staysIn_lift (ofKind_mul ofArgument ofArgument)).bind fun square ofSquare => ?_
          refine (staysIn_lift (ofKind_sub (kind_one kind) ofSquare)).bind fun rest ofRest => ?_
          refine (staysIn_sqrt ofRest).bind fun leg ofLeg => ?_
          refine (staysIn_halfPi ofPi).bind fun quarter ofQuarter => ?_
          refine (hypothesis ofLeg).bind fun complement ofComplement => ?_
          grind
        next => exact staysIn_arcsineSeries ofArgument
      next => exact staysIn_outsideDomain _ _

theorem staysIn_arcsin : StaysIn kind (arcsin library argument) :=
  staysIn_withLimit fun depth => staysIn_arcsinWithin ofPi depth ofArgument

theorem staysIn_arccos : StaysIn kind (arccos library argument) := by
  unfold arccos
  split
  next =>
    rw [ofArgument]
    refine (staysIn_halfPi ofPi).bind fun quarter ofQuarter => ?_
    refine (staysIn_arcsin ofPi ofArgument).bind fun angle ofAngle => ?_
    exact staysIn_lift (ofKind_sub ofQuarter ofAngle)
  next => exact staysIn_outsideDomain _ _

theorem staysIn_arcsec : StaysIn kind (arcsec library argument) := by
  unfold arcsec
  split
  next =>
    refine (staysIn_lift (ofKind_div ((kind_one _).trans ofArgument) ofArgument)).bind
      fun reciprocal ofReciprocal => ?_
    exact staysIn_arccos ofPi ofReciprocal
  next => exact staysIn_outsideDomain _ _

theorem staysIn_arccsc : StaysIn kind (arccsc library argument) := by
  unfold arccsc
  split
  next =>
    refine (staysIn_lift (ofKind_div ((kind_one _).trans ofArgument) ofArgument)).bind
      fun reciprocal ofReciprocal => ?_
    exact staysIn_arcsin ofPi ofReciprocal
  next => exact staysIn_outsideDomain _ _

omit ofArgument in
/-- The arctangent stays in the representation of its argument at every depth. -/
theorem staysIn_arctanWithin
    (depth : Nat)
    {argument : Number}
    (ofArgument : argument.kind = kind) :
    StaysIn kind (arctanWithin library depth argument) := by
  induction depth generalizing argument with
  | zero => exact staysIn_goOn
  | succ depth hypothesis =>
      unfold arctanWithin
      simp only [ofArgument]
      split
      next =>
        refine (hypothesis ((kind_neg argument).trans ofArgument)).bind fun angle ofAngle => ?_
        exact staysIn_pure ((kind_neg angle).trans ofAngle)
      next =>
        refine (staysIn_lift (ofKind_compare ofArgument (kind_one kind))).bind fun order _ => ?_
        split
        next =>
          refine (staysIn_halfPi ofPi).bind fun quarter ofQuarter => ?_
          refine (staysIn_lift (ofKind_div (kind_one kind) ofArgument)).bind
            fun reciprocal ofReciprocal => ?_
          refine (hypothesis ofReciprocal).bind fun angle ofAngle => ?_
          exact staysIn_lift (ofKind_sub ofQuarter ofAngle)
        next =>
          refine ofPi.bind fun pi ofPi => ?_
          exact staysIn_lift (ofKind_div ofPi (kind_ofInt kind 4))
        next =>
          refine (staysIn_lift (ofKind_parse kind (by decide +kernel))).bind fun bound ofBound => ?_
          refine (staysIn_lift (ofKind_atLeast ofArgument ofBound)).bind fun large _ => ?_
          split
          next =>
            refine (staysIn_lift (ofKind_mul ofArgument (kind_ofInt kind 2))).bind
              fun double ofDouble => ?_
            refine (staysIn_lift (ofKind_mul ofArgument ofArgument)).bind
              fun square ofSquare => ?_
            refine (staysIn_lift (ofKind_sub (kind_one kind) ofSquare)).bind
              fun rest ofRest => ?_
            refine (staysIn_lift (ofKind_div ofDouble ofRest)).bind fun doubled ofDoubled => ?_
            refine (hypothesis ofDoubled).bind fun angle ofAngle => ?_
            exact staysIn_lift (ofKind_div ofAngle (kind_ofInt kind 2))
          next => exact staysIn_arctangentSeries ofArgument

theorem staysIn_arctan : StaysIn kind (arctan library argument) :=
  staysIn_withLimit fun depth => staysIn_arctanWithin ofPi depth ofArgument

theorem staysIn_arccot : StaysIn kind (arccot library argument) := by
  unfold arccot
  rw [ofArgument]
  refine (staysIn_halfPi ofPi).bind fun quarter ofQuarter => ?_
  refine (staysIn_arctan ofPi ofArgument).bind fun angle ofAngle => ?_
  exact staysIn_lift (ofKind_sub ofQuarter ofAngle)

end

end Trigonometry
end Reckoner
