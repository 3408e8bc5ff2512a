import Reckoner.Proofs.Evaluation.Agreement
import Reckoner.Proofs.Evaluation.Layers
import Reckoner.Proofs.Evaluation.SteadyReduction

/-!
# Evaluations that agree

Two contexts have the same bindings if they differ in nothing but the forms of the numbers that
variables are bound to.  If no registered function shows the form of a number, then an expression
reduces alike in both.
-/

namespace Reckoner

open Run

/-- The same implementation, the same definitions, and the same variables, bound to numbers that are
alike. -/
structure Context.SameBindings (first second : Context) : Prop where
  implementation : first.implementation = second.implementation
  definitions : ∀ name, first.definitions.find? name = second.definitions.find? name
  values : ∀ name, Option.Rel Number.SameValue (first.values.find? name) (second.values.find? name)

instance : HasForms Context := ⟨Context.SameBindings⟩

/-- The same machine, the same bindings, and the same definitions under way. -/
structure Evaluation.SameState (first second : Evaluation) : Prop where
  machine : first.machine = second.machine
  context : first.context.SameBindings second.context
  expanding : first.expanding = second.expanding

instance : HasForms Evaluation := ⟨Evaluation.SameState⟩

/-- Two evaluations end in the same way: with numbers of one representation and of one value, and
with the same bindings; or with failures of one category; or neither of them ends. -/
inductive SameResult : Except Stop Evaluated → Except Stop Evaluated → Prop
  | value {done other : Evaluated}
      (same : done.value.SameValue other.value)
      (bindings : done.context.SameBindings other.context) :
      SameResult (.ok done) (.ok other)
  | failure {failure other : Failure}
      (same : failure.category = other.category) :
      SameResult (.error (.failed failure)) (.error (.failed other))
  | unfinished : SameResult (.error .unfinished) (.error .unfinished)

namespace Context

variable {first second : Context}

/-- Alike values leave alike bindings. -/
theorem alike_setVariable
    (same : Alike first second)
    (name : String)
    {value other : Number}
    (values : Alike value other) :
    Alike (first.setVariable name value) (second.setVariable name other) where
  implementation := same.implementation
  definitions := same.definitions
  values asked := by
    rw [setVariable, setVariable, Table.find?_insert, Table.find?_insert]
    split
    · exact .some values
    · exact same.values asked

/-- The same tree leaves alike definitions. -/
theorem alike_setDefinition
    (same : Alike first second)
    (name : String)
    (tree : Expr) :
    Alike (first.setDefinition name tree) (second.setDefinition name tree) where
  implementation := same.implementation
  definitions asked := by
    rw [setDefinition, setDefinition, Table.find?_insert, Table.find?_insert, same.definitions]
  values := same.values

end Context

/-! ## Promotion -/

namespace Promotions

variable {promotions : Promotions} {numbers others : List Number}

/-- The representation to promote to does not depend on the forms. -/
theorem target_eq_of_alike (alike : Alike numbers others) :
    promotions.target numbers = promotions.target others := by
  have considered (best : Option (Int × NumberKind)) :
      numbers.foldlM promotions.consider best = others.foldlM promotions.consider best := by
    induction alike generalizing best with
    | nil => rfl
    | cons same _ hypothesis =>
        rw [List.foldlM_cons, List.foldlM_cons, consider, consider, Number.kind_eq_of_alike same]
        exact congrArg _ (funext hypothesis)
  rw [target, target, considered]

/-- Numbers that are alike are brought to one representation alike if they are converted alike. -/
theorem matching_promote
    (converts : ∀ source target convert, promotions.path? source target = some convert →
      ∀ number other, Alike number other → Matching Alike (convert number) (convert other))
    (alike : Alike numbers others) :
    Matching Alike (promotions.promote numbers) (promotions.promote others) := by
  rw [promote, promote, target_eq_of_alike alike]
  cases promotions.target others with
  | error failure => exact .error rfl
  | ok found =>
      cases found with
      | none => exact .ok .nil
      | some target =>
          refine Matching.mapM (fun number other same => ?_) alike
          rw [promoteTo, promoteTo, Number.kind_eq_of_alike same]
          split
          next => exact .ok same
          next =>
            split
            next convert found => exact converts _ _ convert found number other same
            next => exact .error rfl

end Promotions

/-! ## Reduction -/

/-- A function of numbers that admits numbers and gives values without regard to their forms, nor to
the forms of the numbers that are bound. -/
def NumberFunction.IgnoresForms (function : NumberFunction) : Prop :=
  ∀ arguments others : List Number, Alike arguments others →
    function.admits arguments = function.admits others ∧
      ∀ (library : Library) (context : Context), library.context.SameBindings context →
        Agree Alike (function.apply library arguments)
          (function.apply { library with context } others)

/-- A function of unreduced expressions that ignores the forms of numbers if the reduction does. -/
def TreeFunction.IgnoresForms (function : TreeFunction) : Prop :=
  ∀ (reducer : Reducer) (trees : List Expr), function.admits trees = true →
    (∀ tree, Agree Alike (reducer.reduce tree) (reducer.reduce tree)) →
      Agree Alike (function.apply reducer trees) (function.apply reducer trees)

namespace Registry

/-- No registered function and no conversion shows the form of a number. -/
structure IgnoresForms (registry : Registry) : Prop where
  contains : registry.Contains NumberFunction.IgnoresForms TreeFunction.IgnoresForms
  converts : ∀ source target convert, registry.promotions.path? source target = some convert →
    ∀ number other, Alike number other → Matching Alike (convert number) (convert other)

variable {registry : Registry} {kind : NumberKind}

theorem agree_calculate
    {α : Type}
    {related : α → α → Prop}
    {calculation other : Calc α}
    (agree : Agree related calculation other) :
    Agree related (Eval.calculate calculation) (Eval.calculate other) := by
  intro limit start begin same
  obtain ⟨matching, machines⟩ := agree limit start.machine begin.machine same.machine
  exact ⟨matching, machines, same.context, same.expanding⟩

/-- Calculations look at bindings that are alike. -/
theorem agree_calculateIn
    {α : Type}
    {related : α → α → Prop}
    {calculation other : Context → Calc α}
    (agree : ∀ first second : Context, first.SameBindings second →
      Agree related (calculation first) (other second)) :
    Agree related (Eval.calculateIn calculation) (Eval.calculateIn other) :=
  fun limit start begin same =>
    agree_calculate (agree start.context begin.context same.context) limit start begin same

theorem agree_check : Agree Eq Eval.check Eval.check :=
  agree_calculate Calc.agree_check

/-- An application does not depend on the forms of its arguments. -/
theorem IgnoresForms.agree_applyToNumbers
    (ignores : registry.IgnoresForms)
    {function : NumberFunction}
    (agrees : function.IgnoresForms)
    (name : String)
    {numbers others : List Number}
    (alike : Alike numbers others) :
    Agree Alike (registry.applyToNumbers kind name function numbers)
      (registry.applyToNumbers kind name function others) := by
  unfold applyToNumbers
  refine (agree_lift (Promotions.matching_promote ignores.converts alike)).bind
    fun arguments argumentsOther same => ?_
  obtain ⟨admits, applied⟩ := agrees arguments argumentsOther same
  refine agree_ite (by rw [admits]) (fun _ => ?_) fun _ => agree_fail rfl
  exact agree_calculateIn fun first second bindings =>
    applied (registry.libraryIn kind first) second bindings

theorem agree_applyToTrees
    {function : TreeFunction}
    {reducer : Reducer}
    (agrees : function.IgnoresForms)
    (reduces : ∀ tree, Agree Alike (reducer.reduce tree) (reducer.reduce tree))
    (name : String)
    (trees : List Expr) :
    Agree Alike (applyToTrees reducer name function trees)
      (applyToTrees reducer name function trees) := by
  unfold applyToTrees
  exact agree_ite Iff.rfl (fun admitted => agrees reducer trees admitted reduces)
    fun _ => agree_fail rfl

theorem agree_lookUp
    {reduce : Expr → Eval Number}
    (reduces : ∀ tree, Agree Alike (reduce tree) (reduce tree))
    (name : String) :
    Agree Alike (lookUp reduce name) (lookUp reduce name) := by
  refine agree_state_bind fun evaluation other same => ?_
  rw [← same.context.definitions, ← same.expanding]
  have bound := same.context.values name
  generalize evaluation.context.values.find? name = value at bound ⊢
  generalize other.context.values.find? name = valueOther at bound ⊢
  cases bound with
  | some values => exact agree_pure values
  | none =>
      cases evaluation.context.definitions.find? name with
      | none => exact agree_fail rfl
      | some tree =>
          refine agree_ite Iff.rfl (fun _ => agree_fail rfl) fun _ => ?_
          refine (agree_change fun current other same => ?_).bind fun _ _ _ => ?_
          · exact ⟨same.machine, same.context, congrArg (List.cons name) same.expanding⟩
          · refine (reduces tree).thenChange fun current other same => ?_
            exact ⟨same.machine, same.context, congrArg List.tail same.expanding⟩

theorem agree_reduceOperand
    {reduce : Expr → Eval Number}
    {operand : Expr}
    (agree : Agree Alike (reduce operand) (reduce operand)) :
    Agree Alike (reduceOperand reduce operand) (reduceOperand reduce operand) :=
  agree.bind fun _ _ values => agree_check.bind fun _ _ _ => agree_pure values

/-- The head of a tree does not depend on the forms of its operands. -/
theorem IgnoresForms.agree_applyHead
    (ignores : registry.IgnoresForms)
    (tree : Expr)
    {values others : List Number}
    (alike : Alike values others) :
    Agree Alike (registry.applyHead kind tree values) (registry.applyHead kind tree others) := by
  rcases ignores.contains.applyHead_cases kind tree with ⟨name, function, applies, same⟩ |
    ⟨failure, _, same⟩ | same
  · rw [same, same]
    exact ignores.agree_applyToNumbers applies name alike
  · rw [same, same]
    exact agree_fail rfl
  · rw [same, same]
    exact agree_goOn

/-- An assignment does not depend on the forms of the bindings. -/
theorem IgnoresForms.agree_handOver
    (ignores : registry.IgnoresForms)
    {reducer : Reducer}
    (reduces : ∀ tree, Agree Alike (reducer.reduce tree) (reducer.reduce tree))
    (tree : Expr) :
    Agree Alike (registry.handOver reducer tree) (registry.handOver reducer tree) := by
  rcases ignores.contains.handOver_cases tree with ⟨name, function, applies, same⟩ |
    ⟨failure, _, same⟩ | same
  · rw [same]
    exact agree_applyToTrees applies reduces name tree.operands
  · rw [same]
    exact agree_fail rfl
  · rw [same]
    exact agree_goOn

/-- An expression reduces alike in all states that are alike, at every depth. -/
theorem IgnoresForms.agree_reduceWithin
    (ignores : registry.IgnoresForms)
    (depth : Nat)
    (tree : Expr) :
    Agree Alike (registry.reduceWithin kind depth tree)
        (registry.reduceWithin kind depth tree) := by
  induction depth generalizing tree with
  | zero => exact agree_goOn
  | succ depth hypothesis =>
      rcases tree.layers with ⟨text, rfl⟩ | ⟨name, rfl⟩ | ordinary | handedOver
      · exact agree_check.bind fun _ _ _ => agree_lift (Number.matching_parse kind text)
      · exact agree_check.bind fun _ _ _ => agree_lookUp hypothesis name
      · rw [reduceWithin_of_isOrdinary ordinary]
        refine agree_check.bind fun _ _ _ => ?_
        refine (agree_lift (matching_refl Eq.refl _)).bind fun _ _ _ => ?_
        exact (agree_mapM fun operand _ => agree_reduceOperand (hypothesis operand)).bind
          fun _ _ alike => ignores.agree_applyHead tree alike
      · rw [reduceWithin_of_isTreeValue handedOver]
        exact agree_check.bind fun _ _ _ => ignores.agree_handOver hypothesis tree

/-- A reduction does not depend on the forms of the bindings. -/
theorem IgnoresForms.agree_reduce
    (ignores : registry.IgnoresForms)
    (tree : Expr) :
    Agree Alike (registry.reduce kind tree) (registry.reduce kind tree) :=
  agree_withLimit fun depth => ignores.agree_reduceWithin depth tree

/-! ## Evaluation -/

theorem IgnoresForms.withCaches
    (ignores : registry.IgnoresForms)
    (caches : Caches) :
    ({ registry with caches } : Registry).IgnoresForms where
  contains := ignores.contains.withCaches caches
  converts := ignores.converts

/-- Evaluations from the same bindings have the same result, and leave the same machine behind. -/
theorem IgnoresForms.evaluate
    (ignores : registry.IgnoresForms)
    (limit : Nat)
    {first second : Context}
    (same : first.SameBindings second)
    (tree : Expr)
    (cancellation : Cancellation) :
    SameResult (Reckoner.evaluate limit registry first tree cancellation).result
        (Reckoner.evaluate limit registry second tree cancellation).result ∧
      (Reckoner.evaluate limit registry first tree cancellation).machine =
        (Reckoner.evaluate limit registry second tree cancellation).machine := by
  have sameKind : registry.kindOf first = registry.kindOf second := by
    rw [kindOf, kindOf, same.implementation]
  unfold Reckoner.evaluate
  rw [sameKind]
  cases registry.kindOf second with
  | error failure => exact ⟨.failure rfl, rfl⟩
  | ok kind =>
      have agree : Agree Alike (registry.reduce kind tree) (registry.reduce kind tree) :=
        ignores.agree_reduce tree
      obtain ⟨matching, states⟩ := agree limit ⟨⟨cancellation, registry.caches⟩, first, []⟩
        ⟨⟨cancellation, registry.caches⟩, second, []⟩ ⟨rfl, same, rfl⟩
      dsimp only
      rcases ran : registry.reduce kind tree limit ⟨⟨cancellation, registry.caches⟩, first, []⟩
        with ⟨outcome, after⟩
      rcases ranOther : registry.reduce kind tree limit
        ⟨⟨cancellation, registry.caches⟩, second, []⟩ with ⟨outcomeOther, afterOther⟩
      rw [ran, ranOther] at matching states
      cases matching with
      | ok values => exact ⟨.value values states.context, states.machine⟩
      | error stops =>
          cases stops with
          | failed alike => exact ⟨.failure alike, states.machine⟩
          | unfinished => exact ⟨.unfinished, states.machine⟩

/-- If what is registered is steady as well, then an evaluation from the same bindings has the same
result from all sound caches, unless it is stopped before. -/
theorem IgnoresForms.evaluate_of_isSteady
    {sound : Caches → Prop}
    {caches : Caches}
    (ignores : registry.IgnoresForms)
    (steady : registry.IsSteady sound)
    (held : sound caches)
    (limit : Nat)
    {first second : Context}
    (same : first.SameBindings second)
    (tree : Expr)
    (cancellation : Cancellation)
    (answers : IsAnswer
      (Reckoner.evaluate limit { registry with caches } first tree cancellation).result) :
    ∃ bound, ∀ longer ≥ bound, ∀ others, sound others →
      SameResult (Reckoner.evaluate limit { registry with caches } first tree cancellation).result
        (Reckoner.evaluate longer { registry with caches := others } second tree
          .never).result := by
  obtain ⟨bound, settled⟩ :=
    ((steady.withCaches caches).evaluate held limit first tree cancellation).2 answers
  refine ⟨bound, fun longer beyond others heldOthers => ?_⟩
  rw [← settled longer beyond others heldOthers]
  exact ((ignores.withCaches others).evaluate longer same tree .never).1

end Registry
end Reckoner
