import Reckoner.Proofs.Evaluation.Caching
import Reckoner.Proofs.Evaluation.Layers

/-!
# Evaluations whose results do not depend on caches

If what is registered is steady, then so is every reduction, and an evaluation has the same result
from all caches that are in order.
-/

namespace Reckoner

open Run

namespace Registry

/-! ## Pi -/

/-- Caches in which every value of pi has been the result of the implementation that would work it
out otherwise. -/
def Keeps (registry : Registry) (base : Caches → Prop) (caches : Caches) : Prop :=
  base caches ∧ ∀ kind value, caches.pi.get kind = some value →
    ∃ name implementation, registry.implementationFor? kind = some (name, implementation) ∧
      Obtains base implementation.pi value

/-- The pi of a library is computed once and kept. -/
theorem pi_eq_remember
    {registry : Registry}
    {kind : NumberKind}
    {name : String}
    {implementation : NumberImplementation}
    (found : registry.implementationFor? kind = some (name, implementation)) :
    registry.pi kind = remember (·.pi.get kind) (fun value caches => caches.storePi kind value)
      implementation.pi := by
  unfold pi remember
  congr 1
  funext caches
  dsimp only
  cases caches.pi.get kind with
  | some known => rfl
  | none => simp only [found]

/-- Pi is steady if every implementation works it out steadily. -/
theorem steady_pi
    {registry : Registry}
    {base : Caches → Prop}
    (untouched : ∀ caches kind value, base caches → base (caches.storePi kind value))
    (steady : ∀ kind name implementation,
      registry.implementationFor? kind = some (name, implementation) →
        Steady (registry.Keeps base) implementation.pi ∧ Steady base implementation.pi)
    (kind : NumberKind) :
    Steady (registry.Keeps base) (registry.pi kind) := by
  cases found : registry.implementationFor? kind with
  | none =>
      have missing (caches : Caches) (held : registry.Keeps base caches) :
          caches.pi.get kind = none := by
        rw [Option.eq_none_iff_forall_ne_some]
        intro value kept
        obtain ⟨_, _, other, _⟩ := held.2 kind value kept
        rw [found] at other
        cases other
      have fails (limit : Nat) (machine : Machine) (held : registry.Keeps base machine.caches) :
          registry.pi kind limit machine =
            (Run.fail (.outsideDomain "pi" ("no implementation for '" ++ kind.name ++ "'")) :
              Calc Number) limit machine := by
        have got :
            (getThe Caches : Calc Caches) limit machine = (.ok machine.caches, machine) := rfl
        rw [pi, bind_of_ok got]
        simp only [missing machine.caches held, found]
      intro limit start held
      simp only [fails limit start held]
      exact ⟨held, fun _ => ⟨0, fun _ _ longer _ caches heldCaches =>
        ⟨caches, heldCaches, fails longer ⟨.never, caches⟩ heldCaches⟩⟩⟩
  | some entry =>
      obtain ⟨name, implementation⟩ := entry
      obtain ⟨steadyKeeps, steadyBase⟩ := steady kind name implementation found
      rw [pi_eq_remember found]
      refine Remembers.steady_remember ⟨steadyBase, fun _ held => held.1, ?_, ?_⟩ steadyKeeps
      · intro caches value held kept
        obtain ⟨_, _, other, obtained⟩ := held.2 kind value kept
        rw [found] at other
        obtain ⟨_, rfl⟩ := Prod.mk.inj (Option.some.inj other)
        exact obtained
      · intro caches value held obtained
        refine ⟨untouched caches kind value held.1, fun other kept present => ?_⟩
        rw [Caches.storePi, PerKind.get_set] at present
        split at present
        next same =>
          subst same
          obtain rfl := Option.some.inj present
          exact ⟨name, implementation, found, obtained⟩
        next => exact held.2 other kept present

/-! ## Reduction -/

/-- A function of numbers that is steady with the functions of a library. -/
def SteadyNumbers
    (sound : Caches → Prop)
    (library : NumberKind → Context → Library)
    (function : NumberFunction) : Prop :=
  ∀ kind context arguments, Steady sound (function.apply (library kind context) arguments)

/-- A function of unreduced expressions that is steady on what it admits if the reduction is. -/
def SteadyTrees (sound : Caches → Prop) (function : TreeFunction) : Prop :=
  ∀ (kind : NumberKind) (reduce : Nat → Expr → Eval Number) (trees : List Expr) (depth : Nat),
    function.admits trees = true → (∀ tree, SteadyAt sound (fun depth => reduce depth tree) depth) →
      SteadyAt sound (fun depth => function.apply ⟨kind, reduce depth⟩ trees) depth

/-- What is registered is steady. -/
def IsSteady (registry : Registry) (sound : Caches → Prop) : Prop :=
  registry.Contains (SteadyNumbers sound registry.libraryIn) (SteadyTrees sound)

variable {registry : Registry} {sound : Caches → Prop} {kind : NumberKind}

theorem IsSteady.withCaches
    (steady : registry.IsSteady sound)
    (caches : Caches) :
    ({ registry with caches } : Registry).IsSteady sound :=
  Contains.withCaches steady caches

/-- The application of a steady function is steady. -/
theorem steady_applyToNumbers
    {function : NumberFunction}
    (steady : SteadyNumbers sound registry.libraryIn function)
    (name : String)
    (numbers : List Number) :
    Steady sound (registry.applyToNumbers kind name function numbers) := by
  unfold applyToNumbers
  refine (steady_lift _).bind fun arguments => ?_
  split
  next => exact steady_calculateIn fun context => steady kind context arguments
  next => exact steady_fail _

theorem steadyAt_applyToTrees
    {function : TreeFunction}
    {reduce : Nat → Expr → Eval Number}
    {depth : Nat}
    (steady : SteadyTrees sound function)
    (reduces : ∀ tree, SteadyAt sound (fun depth => reduce depth tree) depth)
    (name : String)
    (trees : List Expr) :
    SteadyAt sound (fun depth => applyToTrees ⟨kind, reduce depth⟩ name function trees) depth := by
  simp only [applyToTrees]
  by_cases admitted : function.admits trees = true
  · simp only [admitted, ↓reduceIte]
    exact steady kind reduce trees depth admitted reduces
  · simp only [admitted, Bool.false_eq_true, ↓reduceIte]
    exact (steady_fail _).at depth

theorem steadyAt_lookUp
    {reduce : Nat → Expr → Eval Number}
    {depth : Nat}
    (reduces : ∀ tree, SteadyAt sound (fun depth => reduce depth tree) depth)
    (name : String) :
    SteadyAt sound (fun depth => lookUp (reduce depth) name) depth := by
  unfold lookUp
  refine steadyAt_state_bind (fun _ _ _ => rfl) fun evaluation => ?_
  cases evaluation.context.values.find? name with
  | some value => exact (steady_pure value).at depth
  | none =>
      cases evaluation.context.definitions.find? name with
      | none => exact (steady_fail _).at depth
      | some tree =>
          by_cases expanding : evaluation.expanding.contains name = true
          · simp only [expanding, ↓reduceIte]
            exact (steady_fail _).at depth
          · simp only [expanding, Bool.false_eq_true, ↓reduceIte]
            refine SteadyAt.bind ((steady_change fun _ _ => rfl).at depth) fun _ => ?_
            exact (reduces tree).thenChange fun _ _ => rfl

theorem steadyAt_reduceOperand
    {reduce : Nat → Expr → Eval Number}
    {depth : Nat}
    {operand : Expr}
    (steady : SteadyAt sound (fun depth => reduce depth operand) depth) :
    SteadyAt sound (fun depth => reduceOperand (reduce depth) operand) depth := by
  refine SteadyAt.bind steady fun value => ?_
  exact (steady_check.calculate.bind fun _ => steady_pure value).at depth

/-- The head of a tree is steady. -/
theorem IsSteady.applyHead
    (steady : registry.IsSteady sound)
    (tree : Expr)
    (values : List Number) :
    Steady sound (registry.applyHead kind tree values) := by
  rcases steady.applyHead_cases kind tree with ⟨name, function, applies, same⟩ |
    ⟨failure, _, same⟩ | same
  · rw [same]
    exact steady_applyToNumbers applies name values
  · rw [same]
    exact steady_fail failure
  · rw [same]
    exact steady_goOn

/-- An assignment is steady when the reduction is. -/
theorem IsSteady.handOver
    (steady : registry.IsSteady sound)
    {reduce : Nat → Expr → Eval Number}
    {depth : Nat}
    (reduces : ∀ tree, SteadyAt sound (fun depth => reduce depth tree) depth)
    (tree : Expr) :
    SteadyAt sound (fun depth => registry.handOver ⟨kind, reduce depth⟩ tree) depth := by
  rcases steady.handOver_cases tree with ⟨name, function, applies, same⟩ |
    ⟨failure, _, same⟩ | same
  · simp only [same]
    exact steadyAt_applyToTrees applies reduces name tree.operands
  · simp only [same]
    exact (steady_fail failure).at depth
  · simp only [same]
    exact steady_goOn.at depth

/-- Reductions are steady at every depth. -/
theorem IsSteady.reduceWithin
    (steady : registry.IsSteady sound)
    (depth : Nat)
    (tree : Expr) :
    SteadyAt sound (fun depth => registry.reduceWithin kind depth tree) depth := by
  induction depth generalizing tree with
  | zero => exact steadyAt_goOn rfl
  | succ depth hypothesis =>
      have check : SteadyAt sound (fun _ => Eval.check) depth := steady_check.calculate.at depth
      refine SteadyAt.succ (fun _ => rfl) ?_
      rcases tree.layers with ⟨text, rfl⟩ | ⟨name, rfl⟩ | ordinary | handedOver
      · simp only [reduceWithin_number]
        exact check.bind fun _ => (steady_lift _).at depth
      · simp only [reduceWithin_variable]
        exact check.bind fun _ => steadyAt_lookUp hypothesis name
      · simp only [reduceWithin_of_isOrdinary ordinary]
        refine check.bind fun _ => ?_
        refine ((steady_lift _).at depth).bind fun _ => ?_
        exact (steadyAt_mapM fun operand _ => steadyAt_reduceOperand (hypothesis operand)).bind
          fun values => (steady.applyHead tree values).at depth
      · simp only [reduceWithin_of_isTreeValue handedOver]
        exact check.bind fun _ => steady.handOver hypothesis tree

/-- A reduction by steady functions is steady. -/
theorem IsSteady.reduce
    (steady : registry.IsSteady sound)
    (tree : Expr) :
    Steady sound (registry.reduce kind tree) :=
  steady_withLimit fun depth => steady.reduceWithin depth tree

/-! ## Evaluation -/

/-- Reductions refer to the caches of the machine alone. -/
theorem reduceWithin_caches
    (registry : Registry)
    (caches : Caches)
    (kind : NumberKind)
    (depth : Nat) :
    ({ registry with caches } : Registry).reduceWithin kind depth =
      registry.reduceWithin kind depth := by
  induction depth with
  | zero => rfl
  | succ depth hypothesis =>
      funext tree
      rcases tree with _ | _ | ⟨_ | _, _, _, _⟩ | ⟨_ | _, _, _, _⟩ | ⟨_ | _, _, _⟩ <;>
        simp only [Registry.reduceWithin, hypothesis] <;> rfl

/-- An evaluation leaves sound caches behind, and if it answers then it gives the same answer
from all sound caches. -/
theorem IsSteady.evaluate
    (steady : registry.IsSteady sound)
    (held : sound registry.caches)
    (limit : Nat)
    (context : Context)
    (tree : Expr)
    (cancellation : Cancellation) :
    sound (Reckoner.evaluate limit registry context tree cancellation).machine.caches ∧
      (IsAnswer (Reckoner.evaluate limit registry context tree cancellation).result →
        ∃ bound, ∀ longer ≥ bound, ∀ caches, sound caches →
          (Reckoner.evaluate longer { registry with caches } context tree .never).result =
            (Reckoner.evaluate limit registry context tree cancellation).result) := by
  have sameReduce (caches : Caches) (kind : NumberKind) :
      ({ registry with caches } : Registry).reduce kind tree = registry.reduce kind tree := by
    funext limit state
    exact congrFun (congrFun (congrFun (reduceWithin_caches registry caches kind limit) tree)
      limit) state
  unfold Reckoner.evaluate
  simp only [kindOf_withCaches, sameReduce]
  cases registry.kindOf context with
  | error failure => exact ⟨held, fun _ => ⟨0, fun _ _ _ _ => rfl⟩⟩
  | ok kind =>
      have reduces : Steady sound (registry.reduce kind tree) := steady.reduce tree
      obtain ⟨heldAfter, settles⟩ :=
        reduces limit ⟨⟨cancellation, registry.caches⟩, context, []⟩ held
      rcases ran : registry.reduce kind tree limit ⟨⟨cancellation, registry.caches⟩, context, []⟩
        with ⟨stop | value, final⟩
      · simp only [ran] at heldAfter settles ⊢
        refine ⟨heldAfter, fun answers => ?_⟩
        obtain ⟨bound, settled⟩ := settles answers.of_error
        refine ⟨bound, fun longer beyond caches heldCaches => ?_⟩
        obtain ⟨after, _, same⟩ := settled longer beyond longer beyond caches heldCaches
        have same : registry.reduce kind tree longer ⟨⟨.never, caches⟩, context, []⟩ = _ := same
        rw [same]
      · simp only [ran] at heldAfter settles ⊢
        refine ⟨heldAfter, fun _ => ?_⟩
        obtain ⟨bound, settled⟩ := settles (isAnswer_ok value)
        refine ⟨bound, fun longer beyond caches heldCaches => ?_⟩
        obtain ⟨after, _, same⟩ := settled longer beyond longer beyond caches heldCaches
        have same : registry.reduce kind tree longer ⟨⟨.never, caches⟩, context, []⟩ = _ := same
        rw [same]
        rfl

end Registry
end Reckoner
