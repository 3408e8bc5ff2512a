import Reckoner.Failure
import Reckoner.Number
import Reckoner.Proofs.Number.Rounding

/-!
# Forms of numbers

A decimal is one of many forms of its value.  Two numbers are alike if they have one value,
whatever their forms; what is made of alike numbers is alike.  Apart from its text, the one thing
that shows the form of a number is the smallest difference that counts at the size of zero.  It
is positive in any case, so that zero is below it.
-/

namespace Reckoner

/-- Data that come in several forms: whether two of them differ in nothing but the form. -/
class HasForms (α : Type) where
  Alike : α → α → Prop

export HasForms (Alike)

/-- Two numbers of one representation and of one value: the same floating point number, or
decimals that are equal as rational numbers. -/
inductive Number.SameValue : Number → Number → Prop
  | fast (value : Binary64) : SameValue (.fast value) (.fast value)
  | precise {first second : Decimal} (same : first.value = second.value) :
      SameValue (.precise first) (.precise second)

instance : HasForms Decimal := ⟨fun first second => first.value = second.value⟩
instance : HasForms Number := ⟨Number.SameValue⟩
instance : HasForms Nat := ⟨Eq⟩
instance : HasForms Int := ⟨Eq⟩

/-- The wording of a failure may show the form of a number, its category does not. -/
instance : HasForms Failure := ⟨fun first second => first.category = second.category⟩

/-- Two results that are both values, related to each other, or that are both failures, alike. -/
inductive Matching {ε α : Type} [HasForms ε] (related : α → α → Prop) :
    Except ε α → Except ε α → Prop
  | ok {first second : α} (values : related first second) :
      Matching related (.ok first) (.ok second)
  | error {first second : ε} (failures : Alike first second) :
      Matching related (.error first) (.error second)

section

variable {α β : Type} [HasForms α] [HasForms β]

instance : HasForms (α × β) :=
  ⟨fun first second => Alike first.1 second.1 ∧ Alike first.2 second.2⟩

instance : HasForms (Option α) := ⟨Option.Rel Alike⟩
instance : HasForms (List α) := ⟨List.Forall₂ Alike⟩

end

/-- A result matches itself. -/
theorem matching_refl
    {α : Type}
    {related : α → α → Prop}
    (reflexive : ∀ value, related value value)
    (result : Except Failure α) :
    Matching related result result := by
  cases result with
  | ok value => exact .ok (reflexive value)
  | error failure => exact .error rfl

namespace Matching

variable {ε α β : Type} [HasForms ε] {related : α → α → Prop} {results : β → β → Prop}
  {first second : Except ε α}

/-- Results that match still do by a weaker relation. -/
theorem mono
    (matching : Matching related first second)
    {weaker : α → α → Prop}
    (implies : ∀ value other, related value other → weaker value other) :
    Matching weaker first second := by
  cases matching with
  | ok values => exact .ok (implies _ _ values)
  | error failures => exact .error failures

/-- Matching results match after functions that agree. -/
theorem map
    (matching : Matching related first second)
    {function : α → β}
    (agrees : ∀ value other, related value other → results (function value) (function other)) :
    Matching results (first.map function) (second.map function) := by
  cases matching with
  | ok values => exact .ok (agrees _ _ values)
  | error failures => exact .error failures

/-- Matching results match after continuations that agree. -/
theorem bind
    (matching : Matching related first second)
    {next following : α → Except ε β}
    (agrees : ∀ value other, related value other →
      Matching results (next value) (following other)) :
    Matching results (first >>= next) (second >>= following) := by
  cases matching with
  | ok values => exact agrees _ _ values
  | error failures => exact .error failures

/-- Walks over matching lists match when every step does. -/
theorem mapM
    {γ : Type}
    {entries : γ → γ → Prop}
    {function : γ → Except ε α}
    (agrees : ∀ entry other, entries entry other →
      Matching related (function entry) (function other))
    {before after : List γ}
    (pairs : List.Forall₂ entries before after) :
    Matching (List.Forall₂ related) (before.mapM function) (after.mapM function) := by
  induction pairs with
  | nil => exact .ok .nil
  | cons head _ hypothesis =>
      rw [List.mapM_cons, List.mapM_cons]
      refine (agrees _ _ head).bind fun value other values => ?_
      exact hypothesis.bind fun rest others further => .ok (.cons values further)

/-- The values are known to be those of the results. -/
theorem withResults (matching : Matching related first second) :
    Matching (fun value other => related value other ∧ first = .ok value ∧ second = .ok other)
      first second := by
  cases matching with
  | ok values => exact .ok ⟨values, rfl, rfl⟩
  | error failures => exact .error failures

end Matching

namespace Decimal

variable {first second partner other : Decimal}

/-- Whether the unscaled integer is zero depends on the value only. -/
theorem unscaled_eq_zero_congr (same : first.value = second.value) :
    first.unscaled = 0 ↔ second.unscaled = 0 := by
  rw [← value_eq_zero_iff, ← value_eq_zero_iff, same]

/-- A quotient depends on the values only, and so does its failure. -/
theorem matching_div
    (same : first.value = second.value)
    (others : partner.value = other.value) :
    Matching Alike (first.div partner) (second.div other) := by
  unfold div
  by_cases zero : partner.unscaled = 0
  · rw [if_pos zero, if_pos ((unscaled_eq_zero_congr others).1 zero)]
    exact .error rfl
  · have nonzero := mt (unscaled_eq_zero_congr others).2 zero
    rw [if_neg zero, if_neg nonzero]
    refine .ok ?_
    change (first.quotient partner _).value = (second.quotient other _).value
    rw [value_quotient zero, value_quotient nonzero, same, others]

/-- A power depends on the value of its base only, and so does its failure. -/
theorem matching_powInt (same : first.value = second.value) (exponent : Int) :
    Matching Alike (first.powInt exponent) (second.powInt exponent) := by
  have power : (powerLoop one first exponent.natAbs).value =
      (powerLoop one second exponent.natAbs).value :=
    value_powerLoop_congr exponent.natAbs rfl same
  unfold powInt
  simp only [unscaled_eq_zero_congr same]
  split
  next => exact .ok rfl
  next =>
    split
    next => exact .error rfl
    next =>
      split
      next => exact matching_div rfl power
      next => exact .ok power

end Decimal

namespace Number

variable {first second partner other number : Number}

theorem alike_refl (number : Number) : Alike number number := by
  cases number with
  | fast value => exact .fast value
  | precise value => exact .precise rfl

/-- Numbers that are alike have one representation. -/
theorem kind_eq_of_alike (same : Alike first second) : first.kind = second.kind := by
  cases same <;> rfl

/-! ## Operations -/

theorem alike_neg (same : Alike first second) : Alike first.neg second.neg := by
  cases same with
  | fast value => exact .fast value.neg
  | precise same => exact .precise (by rw [Decimal.value_neg, Decimal.value_neg, same])

/-- Numbers that are alike have one sign. -/
theorem signum_eq_of_alike (same : Alike first second) : first.signum = second.signum := by
  cases same with
  | fast value => rfl
  | precise same =>
      simp only [signum]
      rw [Decimal.signum_eq_sign, Decimal.signum_eq_sign, same]

theorem isZero_eq_of_alike (same : Alike first second) : first.isZero = second.isZero := by
  rw [isZero, isZero, signum_eq_of_alike same]

theorem alike_abs (same : Alike first second) : Alike first.abs second.abs := by
  rw [abs, abs, signum_eq_of_alike same]
  split
  · exact alike_neg same
  · exact same

theorem alike_floor (same : Alike first second) : Alike first.floor second.floor := by
  cases same with
  | fast value => exact .fast value.floor
  | precise same => exact .precise (by rw [Decimal.value_floor, Decimal.value_floor, same])

theorem alike_fractionalPart (same : Alike first second) :
    Alike first.fractionalPart second.fractionalPart := by
  cases same with
  | fast value => exact .fast value.fractionalPart
  | precise same =>
      exact .precise (by rw [Decimal.value_fractionalPart, Decimal.value_fractionalPart, same])

theorem alike_trimmed (same : Alike first second) : Alike first.trimmed second.trimmed := by
  cases same with
  | fast value => exact .fast value
  | precise same => exact .precise (by rw [Decimal.value_rounded, Decimal.value_rounded, same])

/-- Numbers that are alike are integers together. -/
theorem isIntegral_eq_of_alike (same : Alike first second) :
    first.isIntegral = second.isIntegral := by
  cases same with
  | fast value => rfl
  | precise same =>
      simp only [isIntegral]
      rw [Bool.eq_iff_iff, Decimal.isIntegral_iff, Decimal.isIntegral_iff, same]

theorem isFinite_eq_of_alike (same : Alike first second) : first.isFinite = second.isFinite := by
  cases same <;> rfl

/-- Numbers that are alike have one whole part. -/
theorem toInt64?_eq_of_alike (same : Alike first second) : first.toInt64? = second.toInt64? := by
  cases same with
  | fast value => rfl
  | precise same => exact Decimal.toInt64?_congr same

/-- An operation on two numbers, of which the decimals need no more than their values. -/
theorem matching_of_kinds
    {α : Type}
    {related : α → α → Prop}
    {operation : Number → Number → Except Failure α}
    (ofFast : ∀ left right, Matching related (operation (.fast left) (.fast right))
      (operation (.fast left) (.fast right)))
    (ofPrecise : ∀ left right leftOther rightOther, left.value = leftOther.value →
      right.value = rightOther.value → Matching related (operation (.precise left) (.precise right))
        (operation (.precise leftOther) (.precise rightOther)))
    (fastPrecise : ∀ left right, operation (.fast left) (.precise right) =
      .error (mixed (.fast left) (.precise right)))
    (preciseFast : ∀ left right, operation (.precise left) (.fast right) =
      .error (mixed (.precise left) (.fast right)))
    (same : Alike first second)
    (others : Alike partner other) :
    Matching related (operation first partner) (operation second other) := by
  cases same with
  | fast left =>
      cases others with
      | fast right => exact ofFast left right
      | precise _ =>
          rw [fastPrecise, fastPrecise]
          exact .error rfl
  | precise same =>
      cases others with
      | fast right =>
          rw [preciseFast, preciseFast]
          exact .error rfl
      | precise others => exact ofPrecise _ _ _ _ same others

section

variable (same : Alike first second) (others : Alike partner other)

include same others

theorem matching_add : Matching Alike (first.add partner) (second.add other) := by
  refine matching_of_kinds (fun _ _ => .ok (.fast _))
    (fun left right leftOther rightOther same others =>
    .ok (.precise ?_)) (fun _ _ => rfl) (fun _ _ => rfl) same others
  rw [Decimal.value_add, Decimal.value_add, same, others]

theorem matching_sub : Matching Alike (first.sub partner) (second.sub other) := by
  refine matching_of_kinds (fun _ _ => .ok (.fast _))
    (fun left right leftOther rightOther same others =>
    .ok (.precise ?_)) (fun _ _ => rfl) (fun _ _ => rfl) same others
  rw [Decimal.value_sub, Decimal.value_sub, same, others]

theorem matching_mul : Matching Alike (first.mul partner) (second.mul other) := by
  refine matching_of_kinds (fun _ _ => .ok (.fast _))
    (fun left right leftOther rightOther same others =>
    .ok (.precise ?_)) (fun _ _ => rfl) (fun _ _ => rfl) same others
  rw [Decimal.value_mul, Decimal.value_mul, same, others]

/-- Comparisons depend on the values only. -/
theorem matching_compare : Matching Eq (first.compare partner) (second.compare other) := by
  refine matching_of_kinds (fun _ _ => .ok rfl) (fun left right leftOther rightOther same others =>
    .ok ?_) (fun _ _ => rfl) (fun _ _ => rfl) same others
  rw [Decimal.order_eq_compare, Decimal.order_eq_compare, same, others]

theorem matching_div : Matching Alike (first.div partner) (second.div other) := by
  refine matching_of_kinds (fun left right => ?ofFast)
    (fun left right leftOther rightOther same others => ?ofPrecise)
      (fun _ _ => rfl) (fun _ _ => rfl)
    same others
  case ofFast =>
    simp only [div, Binary64.divide]
    split
    · exact .error rfl
    · exact .ok (.fast _)
  case ofPrecise =>
    exact (Decimal.matching_div same others).map fun _ _ => .precise

end

theorem matching_powInt (same : Alike first second) (exponent : Int) :
    Matching Alike (first.powInt exponent) (second.powInt exponent) := by
  cases same with
  | fast value =>
      simp only [powInt, Binary64.power]
      split
      · exact .error rfl
      · split <;> exact .ok (.fast _)
  | precise same => exact (Decimal.matching_powInt same exponent).map fun _ _ => .precise

/-- What is read from a text is alike each time. -/
theorem matching_parse (kind : NumberKind) (text : String) :
    Matching Alike (parse kind text) (parse kind text) :=
  matching_refl alike_refl _

/-! ## Zero and what is small -/

/-- A decimal that is zero. -/
def IsNought : Number → Prop
  | .fast _ => False
  | .precise value => value.value = 0

/-- A decimal that is greater than zero. -/
def IsPositive : Number → Prop
  | .fast _ => False
  | .precise value => 0 < value.value

/-- Two bounds that are alike, or, where what they bound is zero, that are both greater than
zero. -/
def Bounding (bounded first second : Number) : Prop :=
  Alike first second ∨ bounded.IsNought ∧ first.IsPositive ∧ second.IsPositive

theorem isNought_neg : number.neg.IsNought ↔ number.IsNought := by
  cases number with
  | fast value => exact Iff.rfl
  | precise value =>
      simp only [neg, IsNought]
      rw [Decimal.value_neg, neg_eq_zero]

theorem isNought_abs : number.abs.IsNought ↔ number.IsNought := by
  unfold abs
  split
  · exact isNought_neg
  · exact Iff.rfl

theorem IsNought.trimmed (nought : number.IsNought) : number.trimmed.IsNought := by
  cases number with
  | fast value => exact nought
  | precise value =>
      simp only [IsNought, Number.trimmed] at nought ⊢
      rw [Decimal.value_rounded, nought, roundSignificant_zero]

theorem IsPositive.trimmed (positive : number.IsPositive) : number.trimmed.IsPositive := by
  cases number with
  | fast value => exact positive
  | precise value =>
      simp only [IsPositive, Number.trimmed] at positive ⊢
      rw [Decimal.value_rounded]
      exact roundSignificant_pos (by decide) positive

theorem IsPositive.of_alike
    (positive : first.IsPositive)
    (same : Alike first second) :
    second.IsPositive := by
  cases same with
  | fast value => exact positive
  | precise same =>
      simp only [IsPositive] at positive ⊢
      rwa [← same]

theorem IsNought.isPositive_ofInt
    (nought : number.IsNought)
    {whole : Int}
    (positive : 0 < whole) :
    (ofInt number.kind whole).IsPositive := by
  cases number with
  | fast value => exact nought.elim
  | precise value =>
      simp only [IsPositive, ofInt, kind]
      rw [Decimal.value_ofInt]
      exact_mod_cast positive

/-- A product is nought when one of its factors is. -/
theorem isNought_mul (product : first.mul partner = .ok number) :
    number.IsNought ↔ first.IsNought ∨ partner.IsNought := by
  cases first with
  | fast left =>
      cases partner with
      | fast right =>
          obtain rfl := Except.ok.inj product
          exact (or_self_iff).symm
      | precise => cases product
  | precise left =>
      cases partner with
      | fast => cases product
      | precise right =>
          obtain rfl := Except.ok.inj product
          simp only [IsNought]
          rw [Decimal.value_mul, mul_eq_zero]

/-- A quotient is rounded, but to zero only if it is zero. -/
theorem isNought_div (quotient : first.div partner = .ok number) :
    number.IsNought ↔ first.IsNought := by
  cases first with
  | fast left =>
      cases partner with
      | fast right =>
          simp only [div, Binary64.divide] at quotient
          split at quotient
          next => cases quotient
          next =>
            obtain rfl := Except.ok.inj quotient
            exact Iff.rfl
      | precise => cases quotient
  | precise left =>
      cases partner with
      | fast => cases quotient
      | precise right =>
          simp only [div, Decimal.div] at quotient
          split at quotient
          next => cases quotient
          next divisor =>
            obtain rfl := Except.ok.inj quotient
            simp only [IsNought]
            rw [Decimal.value_quotient divisor, roundSignificant_eq_zero_iff (by decide),
              div_eq_zero_iff, or_iff_left (mt Decimal.value_eq_zero_iff.1 divisor)]

/-- A product of positive numbers is positive. -/
theorem IsPositive.mul
    (positive : first.IsPositive)
    (factor : partner.IsPositive)
    (product : first.mul partner = .ok number) :
    number.IsPositive := by
  cases first with
  | fast value => exact positive.elim
  | precise value =>
      cases partner with
      | fast => exact factor.elim
      | precise other =>
          obtain rfl := Except.ok.inj product
          simp only [IsPositive] at positive factor ⊢
          rw [Decimal.value_mul]
          exact mul_pos positive factor

/-- Taking nought from a positive number leaves a positive one. -/
theorem IsPositive.sub
    (positive : first.IsPositive)
    (nought : partner.IsNought)
    (difference : first.sub partner = .ok number) :
    number.IsPositive := by
  cases first with
  | fast value => exact positive.elim
  | precise value =>
      cases partner with
      | fast => exact nought.elim
      | precise other =>
          obtain rfl := Except.ok.inj difference
          simp only [IsPositive, IsNought] at positive nought ⊢
          rwa [Decimal.value_sub, nought, sub_zero]

theorem not_isNought_ofInt (kind : NumberKind) {whole : Int} (nonzero : whole ≠ 0) :
    ¬(ofInt kind whole).IsNought := by
  cases kind with
  | fast => exact not_false
  | precise =>
      simp only [IsNought, ofInt]
      rw [Decimal.value_ofInt]
      exact_mod_cast nonzero

theorem IsNought.signum (nought : number.IsNought) : number.signum = 0 := by
  cases number with
  | fast value => exact nought.elim
  | precise value =>
      simp only [IsNought, Number.signum] at nought ⊢
      rw [Decimal.signum_eq_sign, nought, sign_zero]
      rfl

/-! ## Bounds -/

/-- Apart from zeros, the largest error depends on the value only. -/
theorem alike_maxError
    (same : Alike first second)
    (nonzero : ¬first.IsNought) :
    Alike first.maxError second.maxError := by
  cases same with
  | fast value => exact .fast Binary64.maxError
  | precise same =>
      refine .precise ?_
      rw [Decimal.value_maxError nonzero, Decimal.value_maxError (same ▸ nonzero), same]

/-- The smallest difference that counts bounds the number. -/
theorem bounding_maxError (same : Alike first second) :
    Bounding first first.maxError second.maxError := by
  by_cases nought : first.IsNought
  · refine Or.inr ⟨nought, ?_⟩
    cases same with
    | fast value => exact nought.elim
    | precise same => exact ⟨Decimal.value_maxError_pos _, Decimal.value_maxError_pos _⟩
  · exact Or.inl (alike_maxError same nought)

/-- At the size of zero it shows the form. -/
example : (Number.precise ⟨0, 3⟩).maxError ≠ (Number.precise ⟨0, 0⟩).maxError := by
  decide +kernel

namespace Bounding

variable {bounded bound boundOther : Number}

theorem mono
    (bounding : Bounding bounded bound boundOther)
    (vanishes : bounded.IsNought → number.IsNought) :
    Bounding number bound boundOther :=
  bounding.imp id fun positive => ⟨vanishes positive.1, positive.2⟩

theorem trimmed (bounding : Bounding bounded bound boundOther) :
    Bounding bounded bound.trimmed boundOther.trimmed :=
  bounding.imp alike_trimmed fun positive =>
    ⟨positive.1, positive.2.1.trimmed, positive.2.2.trimmed⟩

/-- A bound stays one when it is multiplied. -/
theorem mul
    (bounding : Bounding bounded bound boundOther)
    (same : Alike partner other)
    (positive : bounded.IsNought → partner.IsPositive) :
    Matching (Bounding bounded) (bound.mul partner) (boundOther.mul other) := by
  rcases bounding with alike | ⟨nought, above, aboveOther⟩
  · exact (matching_mul alike same).mono fun _ _ => Or.inl
  · have factor := positive nought
    have factorOther := factor.of_alike same
    cases same with
    | fast value => exact factor.elim
    | precise same =>
        cases bound with
        | fast => exact above.elim
        | precise left =>
            cases boundOther with
            | fast => exact aboveOther.elim
            | precise right =>
                exact .ok (Or.inr ⟨nought, above.mul factor rfl, aboveOther.mul factorOther rfl⟩)

/-- What is bounded exceeds both bounds or none. -/
theorem compare
    (bounding : Bounding bounded bound boundOther)
    (same : Alike bounded other) :
    Matching (fun order orderOther => (order = .gt ↔ orderOther = .gt))
      (bounded.compare bound) (other.compare boundOther) := by
  rcases bounding with alike | ⟨nought, above, aboveOther⟩
  · refine (matching_compare same alike).mono fun _ _ orders => ?_
    rw [orders]
  · cases same with
    | fast value => exact nought.elim
    | precise same =>
        cases bound with
        | fast => exact above.elim
        | precise left =>
            cases boundOther with
            | fast => exact aboveOther.elim
            | precise right =>
                simp only [IsNought, IsPositive] at nought above aboveOther
                refine .ok ?_
                rw [Decimal.order_eq_compare, Decimal.order_eq_compare, ← same, nought,
                  compare_lt_iff_lt.2 above, compare_lt_iff_lt.2 aboveOther]

end Bounding
end Number
end Reckoner
