import Reckoner.Proofs.Evaluation.Layers
import Reckoner.Proofs.Evaluation.Preservation

/-!
# Invariants of reductions

A property of evaluations is kept by whole reductions if it is kept by what stands at the nodes,
and a reduction stops with no other failures than the nodes do.  Calculations see the machine of
an evaluation alone, and names that are being expanded come and go again, so that the bindings
are in the hands of the functions of unreduced expressions.
-/

namespace Reckoner

/-! ## Promotion -/

namespace Promotions

variable {promotions : Promotions} {failure : Failure}

/-- A failure of promotions: a path is missing, or a conversion fails. -/
def Reports (promotions : Promotions) (failure : Failure) : Prop :=
  failure.category = .promotion ∨
    ∃ source target convert number,
      promotions.path? source target = some convert ∧ convert number = .error failure

theorem category_of_consider
    {best : Option (Int × NumberKind)}
    {number : Number}
    (fails : promotions.consider best number = .error failure) :
    failure.category = .promotion := by
  unfold consider at fails
  split at fails
  next =>
    obtain rfl := Except.error.inj fails
    rfl
  next =>
    split at fails
    next =>
      split at fails
      next => cases fails
      next => cases fails
    next => cases fails

theorem category_of_foldlM_consider
    {best : Option (Int × NumberKind)}
    {numbers : List Number}
    (fails : numbers.foldlM promotions.consider best = .error failure) :
    failure.category = .promotion := by
  induction numbers generalizing best with
  | nil => cases fails
  | cons first rest hypothesis =>
      rw [List.foldlM_cons] at fails
      cases considered : promotions.consider best first with
      | error other =>
          rw [considered] at fails
          obtain rfl : other = failure := Except.error.inj fails
          exact category_of_consider considered
      | ok next =>
          rw [considered] at fails
          exact hypothesis fails

theorem reports_of_promoteTo
    {number : Number}
    {target : NumberKind}
    (fails : promotions.promoteTo number target = .error failure) :
    promotions.Reports failure := by
  unfold promoteTo at fails
  split at fails
  next => cases fails
  next =>
    split at fails
    next convert known => exact .inr ⟨_, _, _, _, known, fails⟩
    next =>
      obtain rfl := Except.error.inj fails
      exact .inl rfl

theorem reports_of_mapM_promoteTo
    {numbers : List Number}
    {target : NumberKind}
    (fails : numbers.mapM (promotions.promoteTo · target) = .error failure) :
    promotions.Reports failure := by
  induction numbers with
  | nil => cases fails
  | cons first rest hypothesis =>
      rw [List.mapM_cons] at fails
      cases promoted : promotions.promoteTo first target with
      | error other =>
          rw [promoted] at fails
          obtain rfl : other = failure := Except.error.inj fails
          exact reports_of_promoteTo promoted
      | ok number =>
          rw [promoted] at fails
          cases others : rest.mapM (promotions.promoteTo · target) with
          | error other =>
              rw [others] at fails
              obtain rfl : other = failure := Except.error.inj fails
              exact hypothesis others
          | ok numbers =>
              rw [others] at fails
              cases fails

/-- Bringing numbers to one representation fails for want of a path, or because a conversion
does. -/
theorem reports_of_promote
    {numbers : List Number}
    (fails : promotions.promote numbers = .error failure) :
    promotions.Reports failure := by
  unfold promote at fails
  split at fails
  next other targets =>
    obtain rfl := Except.error.inj fails
    unfold target at targets
    cases folded : numbers.foldlM promotions.consider none with
    | error stopped =>
        rw [folded] at targets
        obtain rfl : stopped = other := Except.error.inj targets
        exact .inl (category_of_foldlM_consider folded)
    | ok best =>
        rw [folded] at targets
        cases targets
  next => cases fails
  next => exact reports_of_mapM_promoteTo fails

end Promotions

/-! ## Reduction -/

namespace Registry

open Run

variable {registry : Registry} {kind : NumberKind} {considered : Expr → Prop}
  {holds : Evaluation → Prop} {allowed : Failure → Prop}

/-- A property of evaluations that every node keeps, as far as certain expressions are concerned,
and failures among which those of every node are: all operands of these expressions and all
definitions are among them. -/
structure Invariant
    (registry : Registry)
    (considered : Expr → Prop)
    (holds : Evaluation → Prop)
    (allowed : Failure → Prop) :
    Prop where
  check : Eval.check.Preserves holds allowed
  expands : ∀ evaluation expanding, holds evaluation → holds { evaluation with expanding }
  operands : ∀ tree operand, considered tree → operand ∈ tree.operands → considered operand
  definitions : ∀ evaluation name tree, holds evaluation →
    evaluation.context.definitions.find? name = some tree → considered tree
  kinds : ∀ context failure, registry.kindOf context = .error failure → allowed failure
  literals : ∀ kind text failure, considered (.number text) →
    Number.parse kind text = .error failure → allowed failure
  names : ∀ name, allowed (.undefinedVariable name) ∧ allowed (.recursiveDefinition name)
  expects : ∀ tree failure, considered tree →
    registry.expect tree = .error failure → allowed failure
  heads : ∀ kind tree values, considered tree →
    (registry.applyHead kind tree values).Preserves holds allowed
  handOver : ∀ reducer tree, considered tree → tree.isTreeValue = true →
    (∀ inner, considered inner → (reducer.reduce inner).Preserves holds allowed) →
      (registry.handOver reducer tree).Preserves holds allowed

/-- A function that is applied to numbers sees them in one representation. -/
theorem preserves_applyToNumbers
    (promotes : ∀ failure, registry.promotions.Reports failure → allowed failure)
    (refuses : ∀ name, allowed (.badArguments name))
    {function : NumberFunction}
    {numbers : List Number}
    (applies : ∀ arguments, registry.promotions.promote numbers = .ok arguments →
      function.admits arguments = true →
        ∀ context, (Eval.calculate
          (function.apply (registry.libraryIn kind context) arguments)).Preserves holds allowed)
    (name : String) :
    (registry.applyToNumbers kind name function numbers).Preserves holds allowed := by
  unfold applyToNumbers
  refine Ensures.bind (ensures_ofResult (fun _ promoted => promoted) fun failure fails =>
    promotes failure (Promotions.reports_of_promote fails)) fun arguments promoted => ?_
  split
  next admitted =>
    exact fun limit evaluation =>
      applies arguments promoted admitted evaluation.context limit evaluation
  next => exact preserves_fail (refuses name)

namespace Invariant

/-- What calculations do not see is left to the functions of unreduced expressions. -/
theorem ofBlind
    (blind : ∀ evaluation machine expanding, holds evaluation →
      holds { evaluation with machine, expanding })
    (operands : ∀ tree operand, considered tree → operand ∈ tree.operands → considered operand)
    (definitions : ∀ evaluation name tree, holds evaluation →
      evaluation.context.definitions.find? name = some tree → considered tree)
    (handOver : ∀ reducer tree, considered tree → tree.isTreeValue = true →
      (∀ inner, considered inner → (reducer.reduce inner).Preserves holds fun _ => True) →
        (registry.handOver reducer tree).Preserves holds fun _ => True) :
    registry.Invariant considered holds fun _ => True := by
  have calculate {α : Type} (calculation : Calc α) :
      (Eval.calculate calculation).Preserves holds fun _ => True :=
    preserves_within (fun _ _ _ _ => trivial) fun machine evaluation held =>
      blind evaluation machine evaluation.expanding held
  have heads (kind : NumberKind) (tree : Expr) (values : List Number) :
      (registry.applyHead kind tree values).Preserves holds fun _ => True := by
    rcases registry.applyHead_cases kind tree with ⟨name, function, same⟩ | ⟨failure, same⟩ | same
    · rw [same]
      exact preserves_applyToNumbers (fun _ _ => trivial) (fun _ => trivial)
        (fun _ _ _ _ => calculate _) name
    · exact same values ▸ preserves_fail trivial
    · exact same values ▸ preserves_goOn
  exact {
    check := calculate Calc.check
    expands := fun evaluation expanding held => blind evaluation evaluation.machine expanding held
    operands
    definitions
    kinds := fun _ _ _ => trivial
    literals := fun _ _ _ _ _ => trivial
    names := fun _ => ⟨trivial, trivial⟩
    expects := fun _ _ _ _ => trivial
    heads := fun kind tree values _ => heads kind tree values
    handOver }

variable (invariant : registry.Invariant considered holds allowed)

include invariant

theorem lookUp
    {reduce : Expr → Eval Number}
    (reduces : ∀ tree, considered tree → (reduce tree).Preserves holds allowed)
    (name : String) :
    (Registry.lookUp reduce name).Preserves holds allowed := by
  refine preserves_state_bind fun current held => ?_
  cases current.context.values.find? name with
  | some value => exact preserves_pure value
  | none =>
      cases defined : current.context.definitions.find? name with
      | none => exact preserves_fail (invariant.names name).1
      | some body =>
          dsimp only
          split
          next => exact preserves_fail (invariant.names name).2
          next =>
            have expands (update : List String → List String) (evaluation : Evaluation)
                (held : holds evaluation) :
                holds { evaluation with expanding := update evaluation.expanding } :=
              invariant.expands evaluation _ held
            refine Preserves.bind (preserves_change (expands (name :: ·))) fun _ => ?_
            exact (reduces body (invariant.definitions current name body held defined)).thenChange
              (expands List.tail)

/-- Reductions of these expressions keep the property, to any depth, and stop with these
failures. -/
theorem reduceWithin (depth : Nat) {tree : Expr} (considers : considered tree) :
    (registry.reduceWithin kind depth tree).Preserves holds allowed := by
  induction depth generalizing tree with
  | zero => exact preserves_goOn
  | succ depth hypothesis =>
      have check := invariant.check
      rcases tree.layers with ⟨text, rfl⟩ | ⟨name, rfl⟩ | ordinary | handedOver
      · rw [reduceWithin_number]
        exact check.bind fun _ => preserves_ofResult fun failure fails =>
          invariant.literals kind text failure considers fails
      · rw [reduceWithin_variable]
        exact check.bind fun _ => invariant.lookUp (fun _ => hypothesis) name
      · rw [reduceWithin_of_isOrdinary ordinary]
        refine check.bind fun _ => Preserves.bind (preserves_ofResult fun failure fails =>
          invariant.expects tree failure considers fails) fun _ => ?_
        refine Preserves.bind (preserves_mapM fun operand member => ?_) fun values =>
          invariant.heads kind tree values considers
        refine (hypothesis (invariant.operands tree operand considers member)).bind fun value => ?_
        exact check.bind fun _ => preserves_pure value
      · rw [reduceWithin_of_isTreeValue handedOver]
        exact check.bind fun _ => invariant.handOver _ tree considers handedOver fun _ => hypothesis

/-- What holds at the start of an evaluation holds at its end, and if it stops then with one of
these failures. -/
theorem ends
    (limit : Nat)
    (context : Context)
    {tree : Expr}
    (cancellation : Cancellation)
    (considers : considered tree)
    (held : holds ⟨⟨cancellation, registry.caches⟩, context, []⟩) :
    ∃ final, holds final ∧
      (Reckoner.evaluate limit registry context tree cancellation).machine = final.machine ∧
      (∀ result, (Reckoner.evaluate limit registry context tree cancellation).result = .ok result →
        result.context = final.context) ∧
      ∀ failure, (Reckoner.evaluate limit registry context tree cancellation).result =
        .error (.failed failure) → allowed failure := by
  unfold Reckoner.evaluate
  cases known : registry.kindOf context with
  | error unknown =>
      refine ⟨_, held, rfl, fun _ succeeds => (by cases succeeds), fun failure fails => ?_⟩
      obtain rfl : unknown = failure := by simpa using fails
      exact invariant.kinds context unknown known
  | ok kind =>
      have preserves : (registry.reduce kind tree).Preserves holds allowed :=
        preserves_withLimit fun depth => invariant.reduceWithin depth considers
      obtain ⟨after, _, within⟩ :=
        preserves limit ⟨⟨cancellation, registry.caches⟩, context, []⟩ held
      rcases ran : registry.reduce kind tree limit ⟨⟨cancellation, registry.caches⟩, context, []⟩
        with ⟨stop | value, final⟩
      · rw [ran] at after within
        simp only [ran]
        refine ⟨final, after, rfl, fun _ succeeds => (by cases succeeds), fun failure fails => ?_⟩
        exact within failure (congrArg Except.error (Except.error.inj fails))
      · rw [ran] at after
        simp only [ran]
        refine ⟨final, after, rfl, fun result succeeds => ?_, fun _ fails => (by cases fails)⟩
        obtain rfl := Except.ok.inj succeeds
        rfl

/-- What holds at the start of an evaluation that succeeds holds of the bindings of its result. -/
theorem evaluate
    {limit : Nat}
    {context : Context}
    {tree : Expr}
    {cancellation : Cancellation}
    {result : Evaluated}
    (considers : considered tree)
    (held : holds ⟨⟨cancellation, registry.caches⟩, context, []⟩)
    (succeeds : (Reckoner.evaluate limit registry context tree cancellation).result = .ok result) :
    ∃ machine expanding, holds ⟨machine, result.context, expanding⟩ := by
  obtain ⟨final, after, _, same, _⟩ := invariant.ends limit context cancellation considers held
  exact ⟨final.machine, final.expanding, same result succeeds ▸ after⟩

end Invariant
end Registry
end Reckoner
