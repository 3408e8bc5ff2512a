import Reckoner.Proofs.Evaluation.AgreeingReduction
import Reckoner.Proofs.Standard.Agreement
import Reckoner.Proofs.Standard.UniformRegistry

/-!
# The standard registry ignores the forms of numbers

With the standard operators and functions, two evaluations from the same bindings come to the
same value or fail in the same category, in whatever forms the bindings hold their numbers.  The
bindings that they leave behind are the same again.
-/

namespace Reckoner

open Run Calc Registry

namespace Standard

/-! ## Functions that do not look at the bindings -/

section

open Trigonometry

variable (library : Library) (context : Context)

/-- The arcsine does not look at the bindings, at any depth. -/
theorem arcsinWithin_context (depth : Nat) (argument : Number) :
    arcsinWithin { library with context } depth argument =
      arcsinWithin library depth argument := by
  induction depth generalizing argument with
  | zero => rfl
  | succ depth hypothesis =>
      simp only [arcsinWithin, hypothesis]
      rfl

/-- The arctangent does not look at the bindings, at any depth. -/
theorem arctanWithin_context (depth : Nat) (argument : Number) :
    arctanWithin { library with context } depth argument =
      arctanWithin library depth argument := by
  induction depth generalizing argument with
  | zero => rfl
  | succ depth hypothesis =>
      simp only [arctanWithin, hypothesis]
      rfl

theorem arcsin_context (argument : Number) :
    arcsin { library with context } argument = arcsin library argument := by
  simp only [arcsin, arcsinWithin_context]

theorem arccos_context (argument : Number) :
    arccos { library with context } argument = arccos library argument := by
  simp only [arccos, arcsin_context]
  rfl

theorem arcsec_context (argument : Number) :
    arcsec { library with context } argument = arcsec library argument := by
  simp only [arcsec, arccos_context]

theorem arccsc_context (argument : Number) :
    arccsc { library with context } argument = arccsc library argument := by
  simp only [arccsc, arcsin_context]

theorem arctan_context (argument : Number) :
    arctan { library with context } argument = arctan library argument := by
  simp only [arctan, arctanWithin_context]

theorem arccot_context (argument : Number) :
    arccot { library with context } argument = arccot library argument := by
  simp only [arccot, arctan_context]
  rfl

end

/-! ## Operators and functions -/

/-- A function of one argument ignores forms when it is blind to the bindings and agrees. -/
theorem ignoresForms_unary
    {admits : Number → Bool}
    {apply : Library → Number → Calc Number}
    (admitsAlike : ∀ argument other, Alike argument other → admits argument = admits other)
    (blind : ∀ library context argument,
      apply { library with context } argument = apply library argument)
    (agrees : ∀ library argument other, Alike argument other →
      Agree Alike (apply library argument) (apply library other))
    (name : String) :
    (NumberFunction.unary name admits apply).IgnoresForms := by
  intro arguments others alike
  cases alike with
  | nil => exact ⟨rfl, fun _ _ _ => agree_fail rfl⟩
  | cons same rest =>
      cases rest with
      | nil =>
          refine ⟨admitsAlike _ _ same, fun library context _ => ?_⟩
          change Agree Alike (apply library _) (apply { library with context } _)
          rw [blind library context]
          exact agrees library _ _ same
      | cons => exact ⟨rfl, fun _ _ _ => agree_fail rfl⟩

/-- A function of two arguments ignores forms when it is blind to the bindings and agrees. -/
theorem ignoresForms_binary
    {admits : Number → Number → Bool}
    {apply : Library → Number → Number → Calc Number}
    (admitsAlike : ∀ first second partner other, Alike first second → Alike partner other →
      admits first partner = admits second other)
    (blind : ∀ library context first second,
      apply { library with context } first second = apply library first second)
    (agrees : ∀ library first second partner other, Alike first second → Alike partner other →
      Agree Alike (apply library first partner) (apply library second other))
    (name : String) :
    (NumberFunction.binary name admits apply).IgnoresForms := by
  intro arguments others alike
  cases alike with
  | nil => exact ⟨rfl, fun _ _ _ => agree_fail rfl⟩
  | cons same rest =>
      cases rest with
      | nil => exact ⟨rfl, fun _ _ _ => agree_fail rfl⟩
      | cons further rest =>
          cases rest with
          | nil =>
              refine ⟨admitsAlike _ _ _ _ same further, fun library context _ => ?_⟩
              change Agree Alike (apply library _ _) (apply { library with context } _ _)
              rw [blind library context]
              exact agrees library _ _ _ _ same further
          | cons => exact ⟨rfl, fun _ _ _ => agree_fail rfl⟩

theorem ignoresForms_assign : assign.IgnoresForms := by
  intro reducer trees admitted reduces
  obtain ⟨name, tree, rfl⟩ := isAssignment_iff.1 admitted
  refine (reduces tree).bind fun value other values => ?_
  refine (agree_change fun before beforeOther same => ?_).bind fun _ _ _ => agree_pure values
  exact ⟨same.machine, Context.alike_setVariable same.context name values, same.expanding⟩

theorem ignoresForms_define : define.IgnoresForms := by
  intro reducer trees admitted reduces
  obtain ⟨name, tree, rfl⟩ := isAssignment_iff.1 admitted
  refine (agree_change fun before beforeOther same => ?_).bind fun _ _ _ => reduces tree
  exact ⟨same.machine, Context.alike_setDefinition same.context name tree, same.expanding⟩

theorem ignoresForms_operators : ∀ entry ∈ operators, entry.2.2.IgnoresForms := by
  have anyNumbersAlike (first second partner other : Number) (_ : Alike first second)
      (_ : Alike partner other) : anyNumbers first partner = anyNumbers second other := rfl
  have integralAlike (first second partner other : Number) (same : Alike first second)
      (others : Alike partner other) :
      integralNumbers first partner = integralNumbers second other := by
    rw [integralNumbers, integralNumbers, Number.isIntegral_eq_of_alike same,
      Number.isIntegral_eq_of_alike others]
  simp only [operators, List.forall_mem_cons, List.not_mem_nil, false_implies, implies_true,
    and_true]
  refine ⟨?sum, ?difference, ?negation, ?product, ?quotient, ?power, ?factorial, ?permutations,
    ?combinations⟩
  case sum =>
    exact ignoresForms_binary anyNumbersAlike (fun _ _ _ _ => rfl)
      (fun _ _ _ _ _ same others => agree_lift (Number.matching_add same others)) _
  case difference =>
    exact ignoresForms_binary anyNumbersAlike (fun _ _ _ _ => rfl)
      (fun _ _ _ _ _ same others => agree_lift (Number.matching_sub same others)) _
  case negation =>
    exact ignoresForms_unary (fun _ _ _ => rfl) (fun _ _ _ => rfl)
      (fun _ _ _ same => agree_pure (Number.alike_neg same)) _
  case product =>
    exact ignoresForms_binary anyNumbersAlike (fun _ _ _ _ => rfl)
      (fun _ _ _ _ _ same others => agree_lift (Number.matching_mul same others)) _
  case quotient =>
    exact ignoresForms_binary anyNumbersAlike (fun _ _ _ _ => rfl)
      (fun _ _ _ _ _ same others => agree_lift (Number.matching_div same others)) _
  case power =>
    refine ignoresForms_binary (fun first second partner other same others => ?_)
      (fun _ _ _ _ => rfl) (fun _ _ _ _ _ => Elementary.agree_power) _
    rw [hasPower, hasPower, Number.isZero_eq_of_alike same, Number.isZero_eq_of_alike others,
      Number.signum_eq_of_alike same,
      Number.isZero_eq_of_alike (Number.alike_fractionalPart others)]
  case factorial =>
    refine ignoresForms_unary (fun argument other same => ?_) (fun _ _ _ => rfl)
      (fun _ _ _ => Combinatorics.agree_factorial) _
    rw [hasFactorial, hasFactorial, Number.isIntegral_eq_of_alike same,
      Number.signum_eq_of_alike same]
  case permutations =>
    exact ignoresForms_binary integralAlike (fun _ _ _ _ => rfl)
      (fun _ _ _ _ _ => Combinatorics.agree_permutations) _
  case combinations =>
    exact ignoresForms_binary integralAlike (fun _ _ _ _ => rfl)
      (fun _ _ _ _ _ => Combinatorics.agree_combinations) _

theorem ignoresForms_treeOperators : ∀ entry ∈ treeOperators, entry.2.2.IgnoresForms := by
  simp only [treeOperators, List.forall_mem_cons, List.not_mem_nil, false_implies, implies_true,
    and_true]
  exact ⟨ignoresForms_assign, ignoresForms_define⟩

open Trigonometry in
/-- The functions of the standard plugin ignore forms. -/
theorem ignoresForms_functions :
    ∀ entry ∈ functions, (NumberFunction.unary entry.1 entry.2.1 entry.2.2).IgnoresForms := by
  have anyAlike (argument other : Number) (_ : Alike argument other) : true = true := rfl
  simp only [functions, List.forall_mem_cons, List.not_mem_nil, false_implies, implies_true,
    and_true]
  refine ⟨?abs, ?exp, ?ln, ?sqrt, ?sin, ?cos, ?tan, ?sec, ?csc, ?cot, ?arcsin, ?arccos, ?arctan,
    ?arcsec, ?arccsc, ?arccot⟩
  case abs =>
    exact ignoresForms_unary anyAlike (fun _ _ _ => rfl)
      (fun _ _ _ same => agree_pure (Number.alike_abs same)) _
  case exp =>
    exact ignoresForms_unary anyAlike (fun _ _ _ => rfl) (fun _ _ _ => Elementary.agree_exp) _
  case ln =>
    exact ignoresForms_unary (fun _ _ same => by rw [Number.signum_eq_of_alike same])
      (fun _ _ _ => rfl) (fun _ _ _ => Elementary.agree_ln) _
  case sqrt =>
    exact ignoresForms_unary (fun _ _ same => by rw [Number.signum_eq_of_alike same])
      (fun _ _ _ => rfl) (fun _ _ _ => Elementary.agree_sqrt) _
  case sin =>
    exact ignoresForms_unary anyAlike (fun _ _ _ => rfl) (fun library _ _ => agree_sin library) _
  case cos =>
    exact ignoresForms_unary anyAlike (fun _ _ _ => rfl) (fun library _ _ => agree_cos library) _
  case tan =>
    exact ignoresForms_unary anyAlike (fun _ _ _ => rfl) (fun library _ _ => agree_tan library) _
  case sec =>
    exact ignoresForms_unary anyAlike (fun _ _ _ => rfl) (fun library _ _ => agree_sec library) _
  case csc =>
    exact ignoresForms_unary anyAlike (fun _ _ _ => rfl) (fun library _ _ => agree_csc library) _
  case cot =>
    exact ignoresForms_unary anyAlike (fun _ _ _ => rfl) (fun library _ _ => agree_cot library) _
  case arcsin =>
    exact ignoresForms_unary (fun _ _ => withinUnit_eq_of_alike)
      arcsin_context (fun library _ _ => agree_arcsin library) _
  case arccos =>
    exact ignoresForms_unary (fun _ _ => withinUnit_eq_of_alike)
      arccos_context (fun library _ _ => agree_arccos library) _
  case arctan =>
    exact ignoresForms_unary anyAlike arctan_context (fun library _ _ => agree_arctan library) _
  case arcsec =>
    exact ignoresForms_unary (fun _ _ => outsideUnit_eq_of_alike)
      arcsec_context (fun library _ _ => agree_arcsec library) _
  case arccsc =>
    exact ignoresForms_unary (fun _ _ => outsideUnit_eq_of_alike)
      arccsc_context (fun library _ _ => agree_arccsc library) _
  case arccot =>
    exact ignoresForms_unary anyAlike arccot_context (fun library _ _ => agree_arccot library) _

/-! ## The registry -/

theorem matching_toPrecise
    {number other : Number}
    (same : Alike number other) :
    Matching Alike (toPrecise number) (toPrecise other) := by
  cases same with
  | fast value => exact matching_refl Number.alike_refl _
  | precise same => exact .ok (.precise same)

/-- The standard registry ignores forms. -/
theorem ignoresForms_registry : registry.IgnoresForms where
  contains :=
    (contains_enable contains_empty ignoresForms_operators ignoresForms_treeOperators
      ignoresForms_functions).rebuildPromotions
  converts _ _ _ found _ _ same := by
    rw [eq_toPrecise_of_path? found]
    exact matching_toPrecise same

theorem Fills.keeps {caches : Caches} (fills : Fills caches) :
    registry.Keeps Caches.AreTables caches := by
  induction fills with
  | empty => exact keeps_empty _ Caches.areTables_empty
  | @evaluate caches _ limit context tree cancellation held =>
      exact ((isSteady_registry.withCaches caches).evaluate held limit context tree cancellation).1

/-- With the standard registry, whatever the expression, two evaluations from the same bindings
have the same result, in whatever forms the numbers are bound.  They stop after equally many
checks, and leave equal caches behind.  The result is the same as well if the other evaluation
finds in the caches what any earlier evaluations have left there: it has this result, unless it
is stopped before. -/
theorem evaluate_ignores_forms
    {caches : Caches}
    (fills : Fills caches)
    (limit : Nat)
    {first second : Context}
    (same : first.SameBindings second)
    (tree : Expr)
    (cancellation : Cancellation) :
    SameResult (evaluate limit { registry with caches } first tree cancellation).result
        (evaluate limit { registry with caches } second tree cancellation).result ∧
      (evaluate limit { registry with caches } first tree cancellation).machine =
        (evaluate limit { registry with caches } second tree cancellation).machine ∧
      (IsAnswer (evaluate limit { registry with caches } first tree cancellation).result →
        ∃ bound, ∀ longer ≥ bound, ∀ others, Fills others →
          SameResult (evaluate limit { registry with caches } first tree cancellation).result
            (evaluate longer { registry with caches := others } second tree .never).result) := by
  obtain ⟨sameResult, sameMachine⟩ :=
    (ignoresForms_registry.withCaches caches).evaluate limit same tree cancellation
  refine ⟨sameResult, sameMachine, fun answers => ?_⟩
  obtain ⟨bound, settled⟩ := ignoresForms_registry.evaluate_of_isSteady isSteady_registry
    fills.keeps limit same tree cancellation answers
  exact ⟨bound, fun longer beyond others fillsOthers =>
    settled longer beyond others fillsOthers.keeps⟩

/-- Two, 1800 and zero. -/
def shortForms : Context :=
  (((Context.withImplementation preciseName).setVariable "x" (.precise ⟨2, 0⟩)).setVariable "y"
    (.precise ⟨1800, 0⟩)).setVariable "z" (.precise ⟨0, 0⟩)

/-- The same numbers as `2.00`, `18 * 10 ^ 2` and `0.000`. -/
def longForms : Context :=
  (((Context.withImplementation preciseName).setVariable "x" (.precise ⟨200, 2⟩)).setVariable "y"
    (.precise ⟨18, -2⟩)).setVariable "z" (.precise ⟨0, 3⟩)

/-- The sum of an exponential, a quotient and a variable. -/
def formSum : Expr :=
  .binary .value "+"
    (.binary .value "+" (.call .value "exp" [.variable "z"])
      (.binary .value "/" (.variable "y") (.variable "x")))
    (.variable "x")

theorem sameBindings_forms : shortForms.SameBindings longForms := by
  have two : Number.SameValue (.precise ⟨2, 0⟩) (.precise ⟨200, 2⟩) := by
    refine .precise ?_
    norm_num [Decimal.value]
  have thousands : Number.SameValue (.precise ⟨1800, 0⟩) (.precise ⟨18, -2⟩) := by
    refine .precise ?_
    norm_num [Decimal.value]
  have zero : Number.SameValue (.precise ⟨0, 0⟩) (.precise ⟨0, 3⟩) := by
    refine .precise ?_
    norm_num [Decimal.value]
  have unbound : (Context.withImplementation preciseName).SameBindings
      (Context.withImplementation preciseName) := ⟨rfl, fun _ => rfl, fun _ => .none⟩
  exact Context.alike_setVariable (Context.alike_setVariable
    (Context.alike_setVariable unbound "x" two) "y" thousands) "z" zero

/-- The exponential of zero is one in whatever form zero is given, although the bound of its
series is another one; the sum is then given in another form, but is the same. -/
theorem evaluate_ignores_forms_sum :
    Fills .empty ∧ shortForms.SameBindings longForms ∧
      (evaluate 10 { registry with caches := .empty } shortForms formSum .never).result =
        .ok ⟨.precise ⟨903, 0⟩, shortForms⟩ ∧
      (evaluate 10 { registry with caches := .empty } longForms formSum .never).result =
        .ok ⟨.precise ⟨90300, 2⟩, longForms⟩ ∧
      Number.SameValue (.precise ⟨903, 0⟩) (.precise ⟨90300, 2⟩) := by
  have short : (evaluate 10 { registry with caches := .empty } shortForms formSum .never).result =
      .ok ⟨.precise ⟨903, 0⟩, shortForms⟩ := by
    decide +kernel
  have long : (evaluate 10 { registry with caches := .empty } longForms formSum .never).result =
      .ok ⟨.precise ⟨90300, 2⟩, longForms⟩ := by
    decide +kernel
  obtain ⟨sameResult, _⟩ :=
    evaluate_ignores_forms Fills.empty 10 sameBindings_forms formSum .never
  rw [short, long] at sameResult
  cases sameResult with
  | value sameValue _ => exact ⟨.empty, sameBindings_forms, short, long, sameValue⟩

end Standard
end Reckoner
