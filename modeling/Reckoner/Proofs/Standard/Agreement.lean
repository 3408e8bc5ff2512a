import Reckoner.Proofs.Evaluation.Agreement
import Reckoner.Proofs.Evaluation.Representation
import Reckoner.Standard.Plugin

/-!
# The standard functions agree on numbers that are alike

Every standard operator and function gives values that are alike to arguments that are alike.
The terms of a series are alike on both sides, and so is the bound that ends it, unless the
argument is zero.  The bound shows the form of a zero; but then all terms are zero, which no
bound is.
-/

namespace Reckoner

open Run Calc Number

namespace Elementary

/-! ## Comparisons -/

/-- A number is compared alike with bounds that are alike, or that may differ if it is zero. -/
theorem matching_exceeds
    {bounded other bound boundOther : Number}
    (bounding : Bounding bounded bound boundOther)
    (same : Alike bounded other) :
    Matching Eq (exceeds bounded bound) (exceeds other boundOther) := by
  refine (bounding.compare same).map fun order orderOther orders => ?_
  rw [Bool.eq_iff_iff, beq_iff_eq, beq_iff_eq, orders]

theorem matching_atLeast
    {first second partner other : Number}
    (same : Alike first second)
    (others : Alike partner other) :
    Matching Eq (atLeast first partner) (atLeast second other) :=
  (matching_compare same others).map fun _ _ orders => by rw [orders]

/-! ## The exponential function -/

/-- Both sides halve, or both have come to the end. -/
theorem agree_halveStep
    (one two : Number)
    {current other : Number × Nat}
    (same : Alike current other) :
    Agree (Sum.LiftRel Alike Alike) (halveStep one two current) (halveStep one two other) := by
  obtain ⟨reduced, halvings⟩ := current
  obtain ⟨reducedOther, halvingsOther⟩ := other
  obtain ⟨sameReduced, rfl⟩ : Alike reduced reducedOther ∧ halvings = halvingsOther := same
  unfold halveStep
  refine agree_test (matching_exceeds (.inl (alike_refl one)) sameReduced) ?_ ?_
  · refine agree_check.bind fun _ _ _ => ?_
    refine (agree_lift (matching_div sameReduced (alike_refl two))).bind
      fun half halfOther halves => ?_
    exact agree_pure (.inl ⟨halves, rfl⟩)
  · exact agree_pure (.inr ⟨sameReduced, rfl⟩)

/-- The exponential series under way for arguments that are alike. -/
structure SameExpSeries (argument : Number) (first second : ExpSeries) : Prop where
  sum : Alike first.sum second.sum
  numerator : Alike first.numerator second.numerator
  left : Alike first.left second.left
  vanishes : argument.IsNought → first.left.IsNought
  right : Bounding argument first.right second.right
  index : first.index = second.index

/-- Both sides add alike terms, and go on or stop together. -/
theorem agree_expSeriesStep
    {argument other : Number}
    (same : Alike argument other)
    {series partner : ExpSeries}
    (alike : SameExpSeries argument series partner) :
    Agree (Sum.LiftRel (SameExpSeries argument) Alike) (expSeriesStep argument series)
      (expSeriesStep other partner) := by
  unfold expSeriesStep
  rw [← kind_eq_of_alike same, ← alike.index]
  refine agree_check.bind fun _ _ _ => ?_
  refine (agree_self _).bind fun factorial factorialOther factorials => ?_
  refine (agree_lift (matching_div alike.numerator factorials)).bind fun term termOther terms => ?_
  refine (agree_lift (matching_add alike.sum terms)).bind fun sum sumOther sums => ?_
  refine (agree_lift (matching_mul alike.numerator same)).bind
    fun numerator numeratorOther numerators => ?_
  refine (agree_lift (matching_mul alike.left same).withResults).bind
    fun left leftOther products => ?_
  obtain ⟨lefts, product, _⟩ := products
  refine (agree_lift (alike.right.mul (alike_refl _) fun nought =>
    nought.isPositive_ofInt (by omega))).bind fun right rightOther rights => ?_
  -- The right side may show the form of a zero argument.  Then the left side is zero, and below it.
  have vanishes (nought : argument.IsNought) : left.trimmed.IsNought :=
    ((isNought_mul product).2 (.inl (alike.vanishes nought))).trimmed
  refine agree_test (matching_exceeds (rights.trimmed.mono vanishes) (alike_trimmed lefts)) ?_ ?_
  · exact agree_pure (.inl ⟨sums, alike_trimmed numerators, alike_trimmed lefts, vanishes,
      rights.trimmed, rfl⟩)
  · exact agree_pure (.inr sums)

/-- The series of the exponential agree although the forms of a zero have different error
bounds. -/
theorem agree_expSeries
    {argument other : Number}
    (same : Alike argument other) :
    Agree Alike (expSeries argument) (expSeries other) := by
  unfold expSeries
  rw [← kind_eq_of_alike same]
  refine (agree_lift (matching_mul same (alike_refl _)).withResults).bind
    fun left leftOther products => ?_
  obtain ⟨lefts, product, _⟩ := products
  refine agree_repeatUntil (fun _ _ alike => agree_expSeriesStep same alike) ?_
  exact ⟨alike_refl _, same, lefts, fun nought =>
    (isNought_mul product).2 (.inl nought), bounding_maxError same, rfl⟩

theorem agree_squareTimes
    (times : Nat)
    {number other : Number}
    (same : Alike number other) :
    Agree Alike (squareTimes times number) (squareTimes times other) := by
  induction times generalizing number other with
  | zero => exact agree_pure (.some same)
  | succ times hypothesis =>
      unfold squareTimes
      refine agree_check.bind fun _ _ _ => ?_
      refine (agree_lift (matching_mul same same)).bind fun square squareOther squares => ?_
      have trimmed := alike_trimmed squares
      refine agree_ite (by rw [isFinite_eq_of_alike trimmed])
        (fun _ => hypothesis trimmed) fun _ => ?_
      exact agree_pure .none

theorem agree_expNonNegative
    {argument other : Number}
    (same : Alike argument other) :
    Agree Alike (expNonNegative argument) (expNonNegative other) := by
  unfold expNonNegative
  rw [← kind_eq_of_alike same]
  have start : Alike (argument, 0) (other, 0) := ⟨same, rfl⟩
  refine (agree_repeatUntil (fun _ _ alike => agree_halveStep _ _ alike) start).bind
    fun reduction reductionOther reductions => ?_
  refine (agree_expSeries reductions.1).bind fun value valueOther values => ?_
  have halvings : reduction.2 = reductionOther.2 := reductions.2
  rw [halvings]
  exact agree_squareTimes _ values

/-- The exponentials of numbers that are alike agree. -/
theorem agree_exp
    {argument other : Number}
    (same : Alike argument other) :
    Agree Alike (exp argument) (exp other) := by
  unfold exp
  rw [← kind_eq_of_alike same]
  refine agree_ite (by rw [signum_eq_of_alike same]) (fun _ => ?_) fun _ => ?_
  · refine (agree_expNonNegative (alike_neg same)).bind fun result resultOther results => ?_
    cases results with
    | some large => exact agree_lift (matching_div (alike_refl _) large)
    | none => exact agree_pure (alike_refl _)
  · refine (agree_expNonNegative same).bind fun result resultOther results => ?_
    cases results with
    | some value => exact agree_pure value
    | none => exact agree_fail rfl

/-! ## The logarithm -/

/-- A number on its way toward one, which is not zero, and the halvings so far. -/
def SameScaling (first second : Number × Int) : Prop :=
  Alike first second ∧ ¬first.1.IsNought

/-- Both sides halve or double alike, or both have come to the end. -/
theorem agree_scaleStep
    (kind : NumberKind)
    {tenth tenthOther : Number}
    (tenths : Alike tenth tenthOther)
    {current other : Number × Int}
    (same : SameScaling current other) :
    Agree (Sum.LiftRel SameScaling SameScaling)
        (scaleStep (.one kind) (.ofInt kind 2) tenth current)
      (scaleStep (.one kind) (.ofInt kind 2) tenthOther other) := by
  obtain ⟨value, halvings⟩ := current
  obtain ⟨valueOther, halvingsOther⟩ := other
  obtain ⟨⟨values, indices⟩, nonzero⟩ := same
  obtain rfl : halvings = halvingsOther := indices
  unfold scaleStep
  refine (agree_lift (matching_sub values (alike_refl _))).bind
    fun distance distanceOther distances => ?_
  refine agree_test (matching_atLeast (alike_abs distances) tenths) ?_ ?_
  · refine agree_check.bind fun _ _ _ => ?_
    refine agree_ite (by rw [signum_eq_of_alike distances]) (fun _ => ?_) fun _ => ?_
    · refine (agree_lift (matching_div values (alike_refl _)).withResults).bind
        fun half halfOther halves => ?_
      obtain ⟨halves, quotient, _⟩ := halves
      have stays := mt (isNought_div quotient).1 nonzero
      refine (agree_lift (matching_sub halves (alike_refl _))).bind fun rest restOther rests => ?_
      refine agree_ite (by rw [signum_eq_of_alike rests]) (fun _ => ?_) fun _ => ?_
      · exact agree_pure (.inr ⟨⟨halves, rfl⟩, stays⟩)
      · exact agree_pure (.inl ⟨⟨halves, rfl⟩, stays⟩)
    · refine (agree_lift (matching_mul values (alike_refl _)).withResults).bind
        fun double doubleOther doubles => ?_
      obtain ⟨doubles, product, _⟩ := doubles
      have stays (nought : double.IsNought) : False :=
        ((isNought_mul product).1 nought).elim nonzero (not_isNought_ofInt kind (by decide))
      refine (agree_lift (matching_sub doubles (alike_refl _))).bind fun rest restOther rests => ?_
      refine agree_ite (by rw [signum_eq_of_alike rests]) (fun _ => ?_) fun _ => ?_
      · exact agree_pure (.inr ⟨⟨doubles, rfl⟩, stays⟩)
      · exact agree_pure (.inl ⟨⟨doubles, rfl⟩, stays⟩)
  · exact agree_pure (.inr ⟨⟨values, rfl⟩, nonzero⟩)

/-- The logarithm series under way for distances that are alike. -/
structure SameLnSeries (first second : LnSeries) : Prop where
  numerator : Alike first.numerator second.numerator
  term : Alike first.term second.term
  sum : Alike first.sum second.sum
  index : first.index = second.index

/-- Both sides add alike terms, and go on or stop together. -/
theorem agree_lnSeriesStep
    {distance distanceOther maxError maxErrorOther : Number}
    (distances : Alike distance distanceOther)
    (maxErrors : Alike maxError maxErrorOther)
    {series partner : LnSeries}
    (alike : SameLnSeries series partner) :
    Agree (Sum.LiftRel SameLnSeries Alike) (lnSeriesStep distance maxError series)
      (lnSeriesStep distanceOther maxErrorOther partner) := by
  unfold lnSeriesStep
  rw [← kind_eq_of_alike distances, ← alike.index]
  refine agree_test (matching_exceeds (.inl maxErrors) (alike_abs alike.term)) ?_ ?_
  · refine agree_check.bind fun _ _ _ => ?_
    refine (agree_lift (matching_mul alike.numerator distances)).bind
      fun product productOther products => ?_
    have numerators := alike_trimmed (alike_neg products)
    refine (agree_lift (matching_div numerators (alike_refl _))).bind fun term termOther terms => ?_
    refine (agree_lift (matching_add alike.sum terms)).bind fun sum sumOther sums => ?_
    exact agree_pure (.inl ⟨numerators, terms, sums, rfl⟩)
  · exact agree_pure (.inr alike.sum)

/-- Away from zero the series of the logarithm agree. -/
theorem agree_lnNearOne
    {argument other : Number}
    (same : Alike argument other)
    (nonzero : ¬argument.IsNought) :
    Agree Alike (lnNearOne argument) (lnNearOne other) := by
  unfold lnNearOne
  rw [← kind_eq_of_alike same]
  refine (agree_lift (matching_sub same (alike_refl _))).bind
    fun distance distanceOther distances => ?_
  refine agree_repeatUntil
    (fun _ _ alike => agree_lnSeriesStep distances (alike_maxError same nonzero) alike) ?_
  exact ⟨distances, distances, distances, rfl⟩

/-- The logarithms of numbers that are alike agree, or both have none. -/
theorem agree_ln
    {argument other : Number}
    (same : Alike argument other) :
    Agree Alike (ln argument) (ln other) := by
  unfold ln
  rw [← kind_eq_of_alike same]
  refine agree_ite (by rw [signum_eq_of_alike same]) (fun _ => agree_fail rfl) fun positive => ?_
  -- The argument is not zero, and neither is what it is scaled to, so that its bound shows no form.
  have nonzero : ¬argument.IsNought := fun nought => positive nought.signum.le
  refine (agree_lift (matching_parse _ _)).bind fun tenth tenthOther tenths => ?_
  have start : SameScaling (argument, 0) (other, 0) := ⟨⟨same, rfl⟩, nonzero⟩
  refine (agree_repeatUntil (fun _ _ alike => agree_scaleStep _ tenths alike) start).bind
    fun scaled scaledOther scalings => ?_
  obtain ⟨⟨values, halvings⟩, stays⟩ := scalings
  obtain halvings : scaled.2 = scaledOther.2 := halvings
  refine (agree_lnNearOne values stays).bind fun series seriesOther sums => ?_
  rw [← halvings]
  refine agree_ite Iff.rfl (fun _ => agree_pure sums) fun _ => ?_
  refine (agree_self _).bind fun two twoOther twos => ?_
  refine (agree_lift (matching_mul twos (alike_refl _))).bind fun moved movedOther moves => ?_
  exact agree_lift (matching_add moves sums)

/-! ## Powers -/

section

variable {base baseOther exponent exponentOther : Number} (bases : Alike base baseOther)
  (exponents : Alike exponent exponentOther)

include exponents

theorem matching_isIntegerSized (kind : NumberKind) :
    Matching Eq (isIntegerSized kind exponent) (isIntegerSized kind exponentOther) := by
  have sizes := alike_abs exponents
  unfold isIntegerSized
  refine (matching_atLeast sizes (alike_refl _)).bind fun large _ same => ?_
  subst same
  cases large with
  | true => exact matching_exceeds (.inl sizes) (alike_refl _)
  | false => exact .ok rfl

include bases

theorem agree_generalPower :
    Agree Alike (generalPower base exponent) (generalPower baseOther exponentOther) := by
  unfold generalPower
  rw [← kind_eq_of_alike bases]
  refine (agree_ln (alike_abs bases)).bind fun logarithm logarithmOther logarithms => ?_
  refine (agree_lift (matching_mul logarithms exponents)).bind
    fun product productOther products => ?_
  refine (agree_exp products).bind fun size sizeOther sizes => ?_
  refine agree_ite (by rw [signum_eq_of_alike bases]) (fun _ => ?_) fun _ => agree_pure sizes
  refine (agree_lift (matching_div exponents (alike_refl _))).bind fun half halfOther halves => ?_
  refine agree_pure ?_
  rw [isIntegral_eq_of_alike halves]
  split
  · exact sizes
  · exact alike_neg sizes

theorem agree_fractionalPower :
    Agree Alike (fractionalPower base exponent) (fractionalPower baseOther exponentOther) := by
  unfold fractionalPower
  rw [← kind_eq_of_alike bases]
  refine agree_ite (by rw [isZero_eq_of_alike exponents]) (fun _ => agree_pure (alike_refl _))
    fun _ => agree_generalPower bases exponents

/-- Powers agree: the way an exponent is treated depends on its value alone. -/
theorem agree_power : Agree Alike (power base exponent) (power baseOther exponentOther) := by
  unfold power
  rw [← kind_eq_of_alike bases, ← isZero_eq_of_alike bases, ← isZero_eq_of_alike exponents,
    ← signum_eq_of_alike bases, ← isIntegral_eq_of_alike exponents, ← isIntegral_eq_of_alike bases]
  refine agree_ite Iff.rfl (fun _ => agree_fail rfl) fun _ => ?_
  refine agree_ite Iff.rfl (fun _ => agree_fail rfl) fun _ => ?_
  refine agree_ite Iff.rfl (fun _ => agree_pure (alike_refl _)) fun _ => ?_
  refine agree_ite Iff.rfl (fun _ => agree_pure (alike_refl _)) fun _ => ?_
  refine (agree_lift (matching_isIntegerSized exponents _)).bind fun large _ same => ?_
  subst same
  refine agree_ite Iff.rfl (fun _ => ?_) fun _ => agree_generalPower bases exponents
  rw [← toInt64?_eq_of_alike (alike_floor exponents)]
  cases exponent.floor.toInt64? with
  | none => exact agree_fail rfl
  | some whole =>
      refine (agree_fractionalPower bases (alike_fractionalPart exponents)).bind
        fun rest restOther rests => ?_
      refine (agree_lift (matching_powInt bases whole)).bind fun power powerOther powers => ?_
      exact agree_lift (matching_mul powers rests)

end

theorem agree_sqrt
    {argument other : Number}
    (same : Alike argument other) :
    Agree Alike (sqrt argument) (sqrt other) := by
  unfold sqrt
  rw [← kind_eq_of_alike same]
  refine agree_ite (by rw [signum_eq_of_alike same]) (fun _ => agree_fail rfl) fun _ => ?_
  exact (agree_lift (matching_parse _ _)).bind fun half halfOther halves => agree_power same halves

end Elementary

namespace Combinatorics

open Elementary

/-- Numbers that are alike stand for the same natural number, if for any. -/
theorem toNat?_eq_of_alike
    {number other : Number}
    (same : Alike number other) :
    toNat? number = toNat? other := by
  rw [toNat?, toNat?, toInt64?_eq_of_alike same]

theorem agree_factorial
    {number other : Number}
    (same : Alike number other) :
    Agree Alike (Combinatorics.factorial number) (Combinatorics.factorial other) := by
  unfold Combinatorics.factorial
  rw [← kind_eq_of_alike same, ← toNat?_eq_of_alike same]
  cases toNat? number with
  | some count => exact agree_self _
  | none => exact agree_fail rfl

/-- A falling product under way for numbers that are alike. -/
structure SameFallingProduct (first second : FallingProduct) : Prop where
  total : Alike first.total second.total
  factor : Alike first.factor second.factor
  remaining : Alike first.remaining second.remaining

theorem agree_fallingStep
    (one : Number)
    {product other : FallingProduct}
    (alike : SameFallingProduct product other) :
    Agree (Sum.LiftRel SameFallingProduct Alike) (fallingStep one product)
        (fallingStep one other) := by
  unfold fallingStep
  refine agree_ite (by rw [signum_eq_of_alike alike.remaining]) (fun _ => ?_)
    fun _ => agree_pure (.inr alike.total)
  refine agree_check.bind fun _ _ _ => ?_
  refine (agree_lift (matching_mul alike.total alike.factor)).bind fun total totalOther totals => ?_
  refine (agree_lift (matching_sub alike.factor (alike_refl one))).bind
    fun factor factorOther factors => ?_
  refine (agree_lift (matching_sub alike.remaining (alike_refl one))).bind
    fun remaining remainingOther remainings => ?_
  exact agree_pure (.inl ⟨totals, factors, remainings⟩)

variable {available availableOther chosen chosenOther : Number}
  (availables : Alike available availableOther) (choices : Alike chosen chosenOther)

include availables choices

theorem agree_permutations :
    Agree Alike (permutations available chosen) (permutations availableOther chosenOther) := by
  unfold permutations
  rw [← kind_eq_of_alike availables, ← signum_eq_of_alike availables, ← signum_eq_of_alike choices,
    ← isZero_eq_of_alike availables, ← isZero_eq_of_alike choices]
  refine (agree_lift (matching_exceeds (.inl availables) choices)).bind fun more _ same => ?_
  subst same
  refine agree_ite Iff.rfl (fun _ => agree_pure (alike_refl _)) fun _ => ?_
  exact agree_repeatUntil (fun _ _ alike => agree_fallingStep _ alike)
    ⟨alike_refl _, availables, choices⟩

theorem agree_combinations :
    Agree Alike (combinations available chosen) (combinations availableOther chosenOther) := by
  unfold combinations
  rw [← kind_eq_of_alike availables, ← toNat?_eq_of_alike choices]
  refine (agree_permutations availables choices).bind
    fun selections selectionsOther alike => ?_
  refine agree_ite (by rw [isZero_eq_of_alike alike]) (fun _ => agree_pure alike) fun _ => ?_
  cases toNat? chosen with
  | some count =>
      refine (agree_self _).bind fun orders ordersOther same => ?_
      exact agree_lift (matching_div alike same)
  | none => exact agree_fail rfl

end Combinatorics

namespace Trigonometry

open Elementary

/-! ## Sine and its relatives -/

section

variable {angle angleOther pi piOther : Number} (angles : Alike angle angleOther)
  (same : Alike pi piOther)

include angles same

/-- Angles that are alike are moved into one turn alike. -/
theorem matching_smallAngle :
    Matching Alike (smallAngle angle pi) (smallAngle angleOther piOther) := by
  unfold smallAngle
  rw [← kind_eq_of_alike angles, ← signum_eq_of_alike angles]
  refine (matching_mul same (alike_refl _)).bind fun turn turnOther turns => ?_
  refine (matching_div (alike_abs angles) turns).bind fun count countOther counts => ?_
  refine (matching_mul turns (alike_floor counts)).bind fun whole wholeOther wholes => ?_
  refine (matching_sub (alike_abs angles) wholes).bind fun rest restOther rests => ?_
  split
  · exact matching_sub turns rests
  · exact .ok rests

/-- Angles that are alike are folded alike. -/
theorem matching_foldAngle :
    Matching Alike (foldAngle angle pi) (foldAngle angleOther piOther) := by
  unfold foldAngle
  rw [← kind_eq_of_alike angles]
  refine (matching_parse _ _).bind fun half halfOther halves => ?_
  refine (matching_mul same halves).bind fun late lateOther lates => ?_
  refine (matching_atLeast angles lates).bind fun behind _ sameBehind => ?_
  subst sameBehind
  cases behind with
  | true =>
      refine (matching_mul same (alike_refl _)).bind fun turn turnOther turns => ?_
      exact matching_sub angles turns
  | false =>
      refine (matching_div same (alike_refl _)).bind fun quarter quarterOther quarters => ?_
      refine (matching_exceeds (.inl quarters) angles).bind fun above _ sameAbove => ?_
      subst sameAbove
      cases above with
      | true => exact matching_sub same angles
      | false => exact .ok angles

end

/-- The sine series under way for angles that are alike. -/
structure SameSineSeries (angle : Number) (first second : SineSeries) : Prop where
  power : Alike first.power second.power
  vanishes : angle.IsNought → first.power.IsNought
  sum : Alike first.sum second.sum
  exponent : first.exponent = second.exponent

/-- Both sides add alike terms, and go on or stop together. -/
theorem agree_sineStep
    {angle multiplier multiplierOther maxError maxErrorOther : Number}
    (multipliers : Alike multiplier multiplierOther)
    (bounding : Bounding angle maxError maxErrorOther)
    {series partner : SineSeries}
    (alike : SameSineSeries angle series partner) :
    Agree (Sum.LiftRel (SameSineSeries angle) Alike) (sineStep multiplier maxError series)
      (sineStep multiplierOther maxErrorOther partner) := by
  unfold sineStep
  rw [← kind_eq_of_alike multipliers, ← alike.exponent]
  refine agree_check.bind fun _ _ _ => ?_
  refine (agree_lift (matching_mul alike.power multipliers).withResults).bind
    fun power powerOther products => ?_
  obtain ⟨powers, product, _⟩ := products
  have vanishes (nought : angle.IsNought) : power.trimmed.IsNought :=
    ((isNought_mul product).2 (.inl (alike.vanishes nought))).trimmed
  refine (agree_self _).bind fun factorial factorialOther factorials => ?_
  refine (agree_lift (matching_div (alike_trimmed powers) factorials).withResults).bind
    fun term termOther quotients => ?_
  obtain ⟨terms, quotient, _⟩ := quotients
  refine (agree_lift (matching_add alike.sum terms)).bind fun sum sumOther sums => ?_
  have bounds : Bounding term.abs maxError maxErrorOther :=
    bounding.mono fun nought => isNought_abs.2 ((isNought_div quotient).2 (vanishes nought))
  refine agree_test (matching_exceeds bounds (alike_abs terms)) ?_ ?_
  · exact agree_pure (.inl ⟨alike_trimmed powers, vanishes, sums, rfl⟩)
  · exact agree_pure (.inr sums)

/-- The series of the sine agree although the forms of a zero have different error bounds. -/
theorem agree_sineSeries
    {angle other : Number}
    (same : Alike angle other) :
    Agree Alike (sineSeries angle) (sineSeries other) := by
  unfold sineSeries
  refine (agree_lift (matching_mul same same)).bind fun square squareOther squares => ?_
  exact agree_repeatUntil
    (fun _ _ alike => agree_sineStep (alike_neg squares) (bounding_maxError same) alike)
    ⟨same, id, same, rfl⟩

section

variable (library : Library) {argument other : Number} (same : Alike argument other)

include same

theorem agree_sin : Agree Alike (sin library argument) (sin library other) := by
  unfold sin
  rw [← kind_eq_of_alike same]
  refine (agree_self _).bind fun pi piOther pis => ?_
  refine (agree_lift (matching_smallAngle same pis)).bind fun small smallOther smalls => ?_
  refine (agree_lift (matching_foldAngle smalls pis)).bind fun folded foldedOther folds => ?_
  exact agree_sineSeries folds

theorem agree_cos : Agree Alike (cos library argument) (cos library other) := by
  unfold cos
  rw [← kind_eq_of_alike same]
  refine (agree_self _).bind fun quarter quarterOther quarters => ?_
  refine (agree_lift (matching_sub quarters same)).bind
    fun complement complementOther complements => ?_
  exact agree_sin library complements

theorem agree_tan : Agree Alike (tan library argument) (tan library other) := by
  unfold tan
  refine (agree_sin library same).bind fun sine sineOther sines => ?_
  refine (agree_cos library same).bind fun cosine cosineOther cosines => ?_
  exact agree_lift (matching_div sines cosines)

theorem agree_sec : Agree Alike (sec library argument) (sec library other) := by
  unfold sec
  rw [← kind_eq_of_alike same]
  refine (agree_cos library same).bind fun cosine cosineOther cosines => ?_
  exact agree_lift (matching_div (alike_refl _) cosines)

theorem agree_csc : Agree Alike (csc library argument) (csc library other) := by
  unfold csc
  rw [← kind_eq_of_alike same]
  refine (agree_sin library same).bind fun sine sineOther sines => ?_
  exact agree_lift (matching_div (alike_refl _) sines)

theorem agree_cot : Agree Alike (cot library argument) (cot library other) := by
  unfold cot
  refine (agree_cos library same).bind fun cosine cosineOther cosines => ?_
  refine (agree_sin library same).bind fun sine sineOther sines => ?_
  exact agree_lift (matching_div cosines sines)

end

/-! ## Their inverses -/

section

variable {number other : Number} (same : Alike number other)

include same

/-- Numbers that are alike have the same order to one. -/
theorem compare_one_eq_of_alike :
    number.abs.compare (.one number.kind) = other.abs.compare (.one other.kind) := by
  have sizes := alike_abs same
  rw [← kind_abs number, ← kind_abs other]
  generalize number.abs = size at sizes ⊢
  generalize other.abs = sizeOther at sizes ⊢
  cases sizes with
  | fast value => rfl
  | precise sizes =>
      simp only [Number.compare, one, ofInt, kind]
      rw [Decimal.order_eq_compare, Decimal.order_eq_compare, sizes]

theorem withinUnit_eq_of_alike : withinUnit number = withinUnit other := by
  rw [withinUnit, withinUnit, compare_one_eq_of_alike same]

theorem outsideUnit_eq_of_alike : outsideUnit number = outsideUnit other := by
  rw [outsideUnit, outsideUnit, compare_one_eq_of_alike same]

end

/-- The arcsine series under way for arguments that are alike. -/
structure SameArcsineSeries (argument : Number) (first second : ArcsineSeries) : Prop where
  term : Alike first.term second.term
  termVanishes : argument.IsNought → first.term.IsNought
  sum : Alike first.sum second.sum
  power : Alike first.power second.power
  powerVanishes : argument.IsNought → first.power.IsNought
  coefficient : Alike first.coefficient second.coefficient
  exponent : first.exponent = second.exponent

/-- Both sides add alike terms, and go on or stop together. -/
theorem agree_arcsineStep
    {argument multiplier multiplierOther bound boundOther : Number}
    (multipliers : Alike multiplier multiplierOther)
    (bounding : Bounding argument bound boundOther)
    {series partner : ArcsineSeries}
    (alike : SameArcsineSeries argument series partner) :
    Agree (Sum.LiftRel (SameArcsineSeries argument) Alike) (arcsineStep multiplier bound series)
      (arcsineStep multiplierOther boundOther partner) := by
  unfold arcsineStep
  rw [← kind_eq_of_alike multipliers, ← alike.exponent]
  have bounds : Bounding series.term.abs bound boundOther :=
    bounding.mono fun nought => isNought_abs.2 (alike.termVanishes nought)
  refine agree_test (matching_exceeds bounds (alike_abs alike.term)) ?_ ?_
  · refine agree_check.bind fun _ _ _ => ?_
    refine (agree_lift (matching_mul alike.power multipliers).withResults).bind
      fun power powerOther products => ?_
    obtain ⟨powers, product, _⟩ := products
    have powers := alike_trimmed powers
    have vanishes (nought : argument.IsNought) : power.trimmed.IsNought :=
      ((isNought_mul product).2 (.inl (alike.powerVanishes nought))).trimmed
    refine (agree_lift (matching_mul alike.coefficient (alike_refl _))).bind
      fun odd oddOther odds => ?_
    refine (agree_lift (matching_div odds (alike_refl _))).bind
      fun coefficient coefficientOther coefficients => ?_
    refine (agree_lift (matching_mul powers coefficients).withResults).bind
      fun scaled scaledOther products => ?_
    obtain ⟨scalings, scaling, _⟩ := products
    refine (agree_lift (matching_div scalings (alike_refl _)).withResults).bind
      fun term termOther quotients => ?_
    obtain ⟨terms, quotient, _⟩ := quotients
    have termVanishes (nought : argument.IsNought) : term.IsNought :=
      (isNought_div quotient).2 ((isNought_mul scaling).2 (.inl (vanishes nought)))
    refine (agree_lift (matching_add alike.sum terms)).bind fun sum sumOther sums => ?_
    exact agree_pure (.inl ⟨terms, termVanishes, sums,
      powers, vanishes, coefficients, rfl⟩)
  · exact agree_pure (.inr alike.sum)

/-- The series of the arcsine agree although the forms of a zero have different error bounds. -/
theorem agree_arcsineSeries
    {argument other : Number}
    (same : Alike argument other) :
    Agree Alike (arcsineSeries argument) (arcsineSeries other) := by
  unfold arcsineSeries
  rw [← kind_eq_of_alike same]
  refine (agree_lift (matching_mul same same).withResults).bind
    fun multiplier multiplierOther products => ?_
  obtain ⟨multipliers, product, _⟩ := products
  refine (agree_lift (matching_sub (alike_refl _) multipliers).withResults).bind
    fun rest restOther differences => ?_
  obtain ⟨rests, difference, _⟩ := differences
  refine (agree_lift ((bounding_maxError same).mul rests fun nought =>
    (nought.isPositive_ofInt Int.one_pos).sub
      ((isNought_mul product).2 (.inl nought)) difference)).bind
      fun bound boundOther bounding => ?_
  exact agree_repeatUntil (fun _ _ alike => agree_arcsineStep multipliers bounding alike)
    ⟨same, id, same, same, id, alike_refl _, rfl⟩

section

variable (library : Library)

/-- The arcsines of numbers that are alike agree at every depth. -/
theorem agree_arcsinWithin
    (depth : Nat)
    {argument other : Number}
    (same : Alike argument other) :
    Agree Alike (arcsinWithin library depth argument) (arcsinWithin library depth other) := by
  induction depth generalizing argument other with
  | zero => exact agree_goOn
  | succ depth hypothesis =>
      unfold arcsinWithin
      rw [← kind_eq_of_alike same, ← withinUnit_eq_of_alike same, ← signum_eq_of_alike same]
      refine agree_ite Iff.rfl (fun _ => ?_) fun _ => agree_fail rfl
      refine (agree_lift (matching_parse _ _)).bind fun bound boundOther bounds => ?_
      refine agree_test (matching_atLeast (alike_abs same) bounds) ?_ (agree_arcsineSeries same)
      refine (agree_lift (matching_mul same same)).bind fun square squareOther squares => ?_
      refine (agree_lift (matching_sub (alike_refl _) squares)).bind fun rest restOther rests => ?_
      refine (agree_sqrt rests).bind fun leg legOther legs => ?_
      refine (agree_self _).bind fun quarter quarterOther quarters => ?_
      refine (hypothesis legs).bind fun complement complementOther complements => ?_
      refine (agree_lift (matching_sub quarters complements)).bind
        fun angle angleOther angles => ?_
      exact agree_lift (matching_mul angles (alike_refl _))

variable {argument other : Number} (same : Alike argument other)

include same

theorem agree_arcsin : Agree Alike (arcsin library argument) (arcsin library other) :=
  agree_withLimit fun depth => agree_arcsinWithin library depth same

theorem agree_arccos : Agree Alike (arccos library argument) (arccos library other) := by
  unfold arccos
  rw [← kind_eq_of_alike same, ← withinUnit_eq_of_alike same]
  refine agree_ite Iff.rfl (fun _ => ?_) fun _ => agree_fail rfl
  refine (agree_self _).bind fun quarter quarterOther quarters => ?_
  refine (agree_arcsin library same).bind fun angle angleOther angles => ?_
  exact agree_lift (matching_sub quarters angles)

theorem agree_arcsec : Agree Alike (arcsec library argument) (arcsec library other) := by
  unfold arcsec
  rw [← kind_eq_of_alike same, ← outsideUnit_eq_of_alike same]
  refine agree_ite Iff.rfl (fun _ => ?_) fun _ => agree_fail rfl
  exact (agree_lift (matching_div (alike_refl _) same)).bind
    fun reciprocal reciprocalOther reciprocals => agree_arccos library reciprocals

theorem agree_arccsc : Agree Alike (arccsc library argument) (arccsc library other) := by
  unfold arccsc
  rw [← kind_eq_of_alike same, ← outsideUnit_eq_of_alike same]
  refine agree_ite Iff.rfl (fun _ => ?_) fun _ => agree_fail rfl
  exact (agree_lift (matching_div (alike_refl _) same)).bind
    fun reciprocal reciprocalOther reciprocals => agree_arcsin library reciprocals

end

/-- The arctangent series under way for arguments that are alike. -/
structure SameArctangentSeries (argument : Number) (first second : ArctangentSeries) : Prop where
  power : Alike first.power second.power
  powerVanishes : argument.IsNought → first.power.IsNought
  term : Alike first.term second.term
  termVanishes : argument.IsNought → first.term.IsNought
  sum : Alike first.sum second.sum
  exponent : first.exponent = second.exponent

/-- Both sides add alike terms, and go on or stop together. -/
theorem agree_arctangentStep
    {argument multiplier multiplierOther maxError maxErrorOther : Number}
    (multipliers : Alike multiplier multiplierOther)
    (bounding : Bounding argument maxError maxErrorOther)
    {series partner : ArctangentSeries}
    (alike : SameArctangentSeries argument series partner) :
    Agree (Sum.LiftRel (SameArctangentSeries argument) Alike)
      (arctangentStep multiplier maxError series)
      (arctangentStep multiplierOther maxErrorOther partner) := by
  unfold arctangentStep
  rw [← kind_eq_of_alike multipliers, ← alike.exponent]
  have bounds : Bounding series.term.abs maxError maxErrorOther :=
    bounding.mono fun nought => isNought_abs.2 (alike.termVanishes nought)
  refine agree_test (matching_exceeds bounds (alike_abs alike.term)) ?_ ?_
  · refine agree_check.bind fun _ _ _ => ?_
    refine (agree_lift (matching_mul alike.power multipliers).withResults).bind
      fun power powerOther products => ?_
    obtain ⟨powers, product, _⟩ := products
    have powers := alike_trimmed powers
    have vanishes (nought : argument.IsNought) : power.trimmed.IsNought :=
      ((isNought_mul product).2 (.inl (alike.powerVanishes nought))).trimmed
    refine (agree_lift (matching_div powers (alike_refl _)).withResults).bind
      fun term termOther quotients => ?_
    obtain ⟨terms, quotient, _⟩ := quotients
    refine (agree_lift (matching_add alike.sum terms)).bind fun sum sumOther sums => ?_
    exact agree_pure (.inl ⟨powers, vanishes, terms, fun nought =>
      (isNought_div quotient).2 (vanishes nought),
      sums, rfl⟩)
  · exact agree_pure (.inr alike.sum)

/-- The series of the arctangent agree although the forms of a zero have different error bounds.
-/
theorem agree_arctangentSeries
    {argument other : Number}
    (same : Alike argument other) :
    Agree Alike (arctangentSeries argument) (arctangentSeries other) := by
  unfold arctangentSeries
  refine (agree_lift (matching_mul same same)).bind fun square squareOther squares => ?_
  exact agree_repeatUntil
    (fun _ _ alike => agree_arctangentStep (alike_neg squares) (bounding_maxError same) alike)
    ⟨same, id, same, id, same, rfl⟩

section

variable (library : Library)

/-- The arctangents of numbers that are alike agree at every depth. -/
theorem agree_arctanWithin
    (depth : Nat)
    {argument other : Number}
    (same : Alike argument other) :
    Agree Alike (arctanWithin library depth argument) (arctanWithin library depth other) := by
  induction depth generalizing argument other with
  | zero => exact agree_goOn
  | succ depth hypothesis =>
      unfold arctanWithin
      rw [← kind_eq_of_alike same, ← signum_eq_of_alike same]
      refine agree_ite Iff.rfl (fun _ => ?negative) fun _ => ?natural
      case negative =>
        refine (hypothesis (alike_neg same)).bind fun angle angleOther angles => ?_
        exact agree_pure (alike_neg angles)
      case natural =>
        refine (agree_lift (matching_compare same (alike_refl _))).bind fun order _ sameOrder => ?_
        subst sameOrder
        cases order with
        | gt =>
            refine (agree_self _).bind fun quarter quarterOther quarters => ?_
            refine (agree_lift (matching_div (alike_refl _) same)).bind
              fun reciprocal reciprocalOther reciprocals => ?_
            refine (hypothesis reciprocals).bind fun angle angleOther angles => ?_
            exact agree_lift (matching_sub quarters angles)
        | eq => exact agree_self _
        | lt =>
            refine (agree_lift (matching_parse _ _)).bind fun bound boundOther bounds => ?_
            refine agree_test (matching_atLeast same bounds) ?_ (agree_arctangentSeries same)
            refine (agree_lift (matching_mul same (alike_refl _))).bind
              fun double doubleOther doubles => ?_
            refine (agree_lift (matching_mul same same)).bind fun square squareOther squares => ?_
            refine (agree_lift (matching_sub (alike_refl _) squares)).bind
              fun rest restOther rests => ?_
            refine (agree_lift (matching_div doubles rests)).bind
              fun large largeOther larges => ?_
            refine (hypothesis larges).bind fun angle angleOther angles => ?_
            exact agree_lift (matching_div angles (alike_refl _))

variable {argument other : Number} (same : Alike argument other)

include same

theorem agree_arctan : Agree Alike (arctan library argument) (arctan library other) :=
  agree_withLimit fun depth => agree_arctanWithin library depth same

theorem agree_arccot : Agree Alike (arccot library argument) (arccot library other) := by
  unfold arccot
  rw [← kind_eq_of_alike same]
  refine (agree_self _).bind fun quarter quarterOther quarters => ?_
  refine (agree_arctan library same).bind fun angle angleOther angles => ?_
  exact agree_lift (matching_sub quarters angles)

end

end Trigonometry
end Reckoner
