import Reckoner.Proofs.Evaluation.Termination
import Reckoner.Proofs.Evaluation.UniformReduction

/-!
# Definitions and their expansion

A name that is not a variable stands for the expression that it is defined as.  Where definitions
do not depend on themselves, an expression comes to the same value or failure as the expression
in which each such name has been replaced, again and again, by what it is defined as.  Where they
do, every reduction comes to a failure: it goes through the operands and definitions in one
order, and either stops before it reaches the dependence or is stopped by it.
-/

namespace Reckoner

open Run

/-! ## Names that are replaced -/

namespace Context

variable {context : Context} {expanding : List String} {tree : Expr} {name : String} {body : Expr}

/-- An expression in which every name that is defined, and is not a variable, has been replaced
by the expression that it is defined as, in which the same has been done. -/
inductive Expands (context : Context) : Expr → Expr → Prop
  | number (text : String) : Expands context (.number text) (.number text)
  | bound
      {name : String}
      {value : Number}
      (bound : context.values.find? name = some value) :
      Expands context (.variable name) (.variable name)
  | undefined
      {name : String}
      (undefined : context.definitions.find? name = none) :
      Expands context (.variable name) (.variable name)
  | definition
      {name : String}
      {tree expanded : Expr}
      (unbound : context.values.find? name = none)
      (defined : context.definitions.find? name = some tree)
      (expands : Expands context tree expanded) :
      Expands context (.variable name) expanded
  | binary
      {left right expandedLeft expandedRight : Expr}
      (mode : Mode)
      (operator : String)
      (first : Expands context left expandedLeft)
      (second : Expands context right expandedRight) :
      Expands context (.binary mode operator left right)
        (.binary mode operator expandedLeft expandedRight)
  | unary
      {operand expanded : Expr}
      (mode : Mode)
      (operator : String)
      (fixity : Fixity)
      (expands : Expands context operand expanded) :
      Expands context (.unary mode operator fixity operand) (.unary mode operator fixity expanded)
  | call
      {arguments expanded : List Expr}
      (mode : Mode)
      (name : String)
      (expands : List.Forall₂ (Expands context) arguments expanded) :
      Expands context (.call mode name arguments) (.call mode name expanded)

/-- The reduction of an expression comes by a name that stands for a definition. -/
structure Uses (context : Context) (tree : Expr) (name : String) (body : Expr) : Prop where
  visits : context.Visits tree (.variable name)
  unbound : context.values.find? name = none
  defined : context.definitions.find? name = some body

/-- An expression uses a definition that uses itself. -/
def IsCircular (context : Context) (tree : Expr) : Prop :=
  ∃ name body, context.Uses tree name body ∧ context.Uses body name body

/-- An expression uses none of the definitions that are being expanded, and none that uses
itself. -/
structure IsFree (context : Context) (expanding : List String) (tree : Expr) : Prop where
  unused : ∀ name ∈ expanding, ∀ body, ¬context.Uses tree name body
  straight : ¬context.IsCircular tree

/-- A tree uses what its operands use. -/
theorem Uses.operand
    {operand : Expr}
    (member : operand ∈ tree.operands)
    (uses : context.Uses operand name body) :
    context.Uses tree name body :=
  ⟨.operand member uses.visits, uses.unbound, uses.defined⟩

/-- A variable uses what its definition uses. -/
theorem Uses.definition
    {other : String}
    {inner : Expr}
    (unbound : context.values.find? name = none)
    (defined : context.definitions.find? name = some body)
    (uses : context.Uses body other inner) :
    context.Uses (.variable name) other inner :=
  ⟨.definition unbound defined uses.visits, uses.unbound, uses.defined⟩

theorem uses_self
    (unbound : context.values.find? name = none)
    (defined : context.definitions.find? name = some body) :
    context.Uses (.variable name) name body :=
  ⟨.here _, unbound, defined⟩

/-- What an expression uses is the definition that it is the name of, or used by an operand or by
this definition. -/
theorem Uses.cases
    (uses : context.Uses tree name body) :
    tree = .variable name ∨ (∃ operand ∈ tree.operands, context.Uses operand name body) ∨
      ∃ other inner, tree = .variable other ∧ context.values.find? other = none ∧
        context.definitions.find? other = some inner ∧ context.Uses inner name body := by
  cases uses.visits with
  | here => exact .inl rfl
  | operand member visits => exact .inr (.inl ⟨_, member, visits, uses.unbound, uses.defined⟩)
  | definition unbound defined visits =>
      exact .inr (.inr ⟨_, _, rfl, unbound, defined, visits, uses.unbound, uses.defined⟩)

/-- Nothing is replaced at the head of an expression that is not a name. -/
theorem Expands.ordinary
    {expanded : Expr}
    (expands : context.Expands tree expanded)
    (ordinary : tree.isOrdinary = true)
    (registry : Registry)
    (kind : NumberKind) :
    expanded.isOrdinary = true ∧ registry.expect expanded = registry.expect tree ∧
      registry.applyHead kind expanded = registry.applyHead kind tree ∧
      List.Forall₂ context.Expands tree.operands expanded.operands := by
  cases expands with
  | number | bound | undefined | definition => cases ordinary
  | binary mode operator first second =>
      cases mode with
      | value => exact ⟨rfl, rfl, rfl, .cons first (.cons second .nil)⟩
      | tree => cases ordinary
  | unary mode operator fixity expands =>
      cases mode with
      | value => exact ⟨rfl, rfl, rfl, .cons expands .nil⟩
      | tree => cases ordinary
  | call mode name expands =>
      cases mode with
      | value => exact ⟨rfl, rfl, rfl, expands⟩
      | tree => cases ordinary

/-- A tree expands when its operands do. -/
theorem exists_expands
    {operands : List Expr}
    (ordinary : tree.isOrdinary = true)
    (expands : List.Forall₂ context.Expands tree.operands operands) :
    ∃ expanded, context.Expands tree expanded := by
  match tree, ordinary with
  | .binary mode operator _ _, _ =>
      obtain _ | ⟨first, _ | ⟨second, -⟩⟩ := expands
      exact ⟨_, .binary mode operator first second⟩
  | .unary mode operator fixity _, _ =>
      obtain _ | ⟨first, -⟩ := expands
      exact ⟨_, .unary mode operator fixity first⟩
  | .call mode name _, _ => exact ⟨_, .call mode name expands⟩

/-- A tree without definitions is free of circles. -/
theorem isFree_of_unused (unused : ∀ name body, ¬context.Uses tree name body) :
    context.IsFree expanding tree where
  unused name _ body := unused name body
  straight := fun ⟨name, body, uses, _⟩ => unused name body uses

theorem isFree_of_bound
    {value : Number}
    (bound : context.values.find? name = some value) :
    context.IsFree expanding (.variable name) := by
  refine isFree_of_unused fun other body uses => ?_
  rcases uses.cases with same | ⟨_, impossible, _⟩ | ⟨_, _, same, unbound, _⟩
  · obtain rfl := Expr.variable.inj same
    cases uses.unbound.symm.trans bound
  · cases impossible
  · obtain rfl := Expr.variable.inj same
    cases unbound.symm.trans bound

/-- An expression that is not a name is free if its operands are. -/
theorem isFree_operands_iff (named : ∀ name, tree ≠ .variable name) :
    context.IsFree expanding tree ↔
      ∀ operand ∈ tree.operands, context.IsFree expanding operand := by
  have within {name body} (uses : context.Uses tree name body) :
      ∃ operand ∈ tree.operands, context.Uses operand name body := by
    rcases uses.cases with same | inside | ⟨other, _, same, _⟩
    · exact absurd same (named name)
    · exact inside
    · exact absurd same (named other)
  constructor
  · intro free operand member
    refine ⟨fun name among body uses => free.unused name among body (uses.operand member), ?_⟩
    rintro ⟨name, body, uses, circular⟩
    exact free.straight ⟨name, body, uses.operand member, circular⟩
  · intro free
    constructor
    · intro name among body uses
      obtain ⟨operand, member, uses⟩ := within uses
      exact (free operand member).unused name among body uses
    · rintro ⟨name, body, uses, circular⟩
      obtain ⟨operand, member, uses⟩ := within uses
      exact (free operand member).straight ⟨name, body, uses, circular⟩

/-- A name is free if it is not being expanded, and its definition is free while it is. -/
theorem isFree_definition_iff
    (unbound : context.values.find? name = none)
    (defined : context.definitions.find? name = some body) :
    context.IsFree expanding (.variable name) ↔
      name ∉ expanding ∧ context.IsFree (name :: expanding) body := by
  have known {other inner} (uses : context.Uses (.variable name) other inner) :
      (other = name ∧ inner = body) ∨ context.Uses body other inner := by
    rcases uses.cases with same | ⟨_, impossible, _⟩ | ⟨_, _, same, _, found, uses⟩
    · obtain rfl := Expr.variable.inj same
      exact .inl ⟨rfl, Option.some.inj (uses.defined.symm.trans defined)⟩
    · cases impossible
    · obtain rfl := Expr.variable.inj same
      obtain rfl := Option.some.inj (defined.symm.trans found)
      exact .inr uses
  constructor
  · intro free
    refine ⟨fun among => free.unused name among body (uses_self unbound defined), ?_, ?_⟩
    · rintro other (_ | ⟨_, among⟩) inner uses
      · obtain rfl := Option.some.inj (defined.symm.trans uses.defined)
        exact free.straight ⟨name, body, uses_self unbound defined, uses⟩
      · exact free.unused other among inner (uses.definition unbound defined)
    · rintro ⟨other, inner, uses, circular⟩
      exact free.straight ⟨other, inner, uses.definition unbound defined, circular⟩
  · rintro ⟨fresh, free⟩
    constructor
    · intro other among inner uses
      rcases known uses with ⟨rfl, -⟩ | uses
      · exact fresh among
      · exact free.unused other (List.mem_cons_of_mem name among) inner uses
    · rintro ⟨other, inner, uses, circular⟩
      rcases known uses with ⟨rfl, rfl⟩ | uses
      · exact free.unused other List.mem_cons_self inner circular
      · exact free.straight ⟨other, inner, uses, circular⟩

end Context

/-! ## Outcomes -/

/-- A function of numbers, in the strict sense: whatever is bound, it comes to a result that
depends on its arguments alone, cancels nothing, and leaves no other values in the caches than
those of a sort. -/
def NumberFunction.IsFunction
    (sound : Caches → Prop)
    (library : Context → Library)
    (function : NumberFunction) : Prop :=
  ∀ arguments, ∃ outcome, ∀ context caches, sound caches →
    Ends (fun _ => function.apply (library context) arguments) ⟨.never, caches⟩
      fun result machine =>
        result = outcome ∧ machine.cancellation = .never ∧ sound machine.caches

/-- All registered functions of numbers are functions in the strict sense. -/
def Registry.IsFunctional
    (registry : Registry)
    (kind : NumberKind)
    (sound : Caches → Prop) : Prop :=
  registry.Contains (NumberFunction.IsFunction sound (registry.libraryIn kind)) fun _ => True

/-- An evaluation that nothing cancels, with these bindings and in the middle of these
expansions. -/
structure Evaluation.IsCalm
    (sound : Caches → Prop)
    (context : Context)
    (expanding : List String)
    (evaluation : Evaluation) : Prop where
  uncancelled : evaluation.machine.cancellation = .never
  caches : sound evaluation.machine.caches
  context : evaluation.context = context
  expanding : evaluation.expanding = expanding

/-- The machine of such an evaluation is known up to its caches. -/
theorem Evaluation.IsCalm.machine_eq
    {sound : Caches → Prop}
    {context : Context}
    {expanding : List String}
    {evaluation : Evaluation}
    (calm : evaluation.IsCalm sound context expanding) :
    evaluation.machine = ⟨.never, evaluation.machine.caches⟩ := by
  rw [← calm.uncancelled]

namespace Eval

variable {sound : Caches → Prop} {context : Context} {expanding : List String} {α β : Type}

/-- In every such evaluation the runs come to this outcome, and the evaluation stays as it is. -/
def ComesTo
    (sound : Caches → Prop)
    (context : Context)
    (expanding : List String)
    (runs : Nat → Eval α)
    (outcome : Except Failure α) : Prop :=
  ∀ evaluation : Evaluation, evaluation.IsCalm sound context expanding →
    Ends runs evaluation fun result final =>
      result = outcome ∧ final.IsCalm sound context expanding

theorem comesTo_lift (outcome : Except Failure α) :
    ComesTo sound context expanding (fun _ => liftM outcome) outcome :=
  fun _ calm => ends_lift ⟨rfl, calm⟩

/-- Outcomes follow one another as the runs do. -/
theorem ComesTo.bind
    {runs : Nat → Eval α}
    {next : Nat → α → Eval β}
    {outcome : Except Failure α}
    {last : α → Except Failure β}
    (first : ComesTo sound context expanding runs outcome)
    (second : ∀ value, outcome = .ok value →
      ComesTo sound context expanding (fun depth => next depth value) (last value)) :
    ComesTo sound context expanding (fun depth => runs depth >>= next depth)
        (outcome >>= last) := by
  intro evaluation calm
  refine (first evaluation calm).bind ?_ ?_
  · rintro value after ⟨rfl, calm⟩
    exact second value rfl after calm
  · rintro failure after ⟨rfl, calm⟩
    exact ⟨rfl, calm⟩

/-- A walk comes to the outcomes of its steps. -/
theorem comesTo_mapM
    {function : Nat → α → Eval β}
    {values : List α}
    {outcomes : List (Except Failure β)}
    (every : List.Forall₂
      (fun value => ComesTo sound context expanding (fun depth => function depth value))
      values outcomes) :
    ComesTo sound context expanding (fun depth => values.mapM (function depth))
        (outcomes.mapM id) := by
  induction every with
  | nil =>
      simp only [List.mapM_nil]
      exact comesTo_lift (.ok [])
  | cons first _ hypothesis =>
      simp only [List.mapM_cons]
      refine first.bind fun value _ => hypothesis.bind fun values _ => ?_
      exact comesTo_lift (.ok (value :: values))

theorem exists_of_bind_eq_ok
    {outcome : Except Failure α}
    {next : α → Except Failure β}
    {value : β}
    (same : outcome >>= next = .ok value) :
    ∃ middle, outcome = .ok middle ∧ next middle = .ok value := by
  cases outcome with
  | error failure => cases same
  | ok middle => exact ⟨middle, rfl, same⟩

/-- Results of which all have been taken were no failures. -/
theorem exists_of_mapM_id_eq_ok
    {outcomes : List (Except Failure α)}
    {values : List α}
    (found : outcomes.mapM id = .ok values) :
    ∀ outcome ∈ outcomes, ∃ value, outcome = .ok value := by
  induction outcomes generalizing values with
  | nil => simp
  | cons first rest hypothesis =>
      rw [List.mapM_cons] at found
      obtain ⟨value, given, found⟩ := exists_of_bind_eq_ok found
      obtain ⟨others, found, _⟩ := exists_of_bind_eq_ok found
      rintro outcome (_ | ⟨_, member⟩)
      · exact ⟨value, given⟩
      · exact hypothesis found outcome member

/-- Nothing is cancelled, so that a check changes nothing. -/
theorem comesTo_check : ComesTo sound context expanding (fun _ => Eval.check) (.ok ()) := by
  intro evaluation calm
  refine ends_check ⟨?_, ?_, calm.caches, calm.context, calm.expanding⟩
  · simp [calm.uncancelled, Cancellation.isCancelled, Cancellation.never]
  · simp [calm.uncancelled, Cancellation.next, Cancellation.never]

/-- The check ahead of a step changes no outcome. -/
theorem ComesTo.checked
    {runs : Nat → Eval α}
    {outcome : Except Failure α}
    (comes : ComesTo sound context expanding runs outcome) :
    ComesTo sound context expanding (fun depth => Eval.check >>= fun _ => runs depth) outcome :=
  comesTo_check.bind fun _ _ => comes

/-- A recursion that comes to an outcome one level further down. -/
theorem ComesTo.succ
    {runs body : Nat → Eval α}
    {outcome : Except Failure α}
    (unfolds : ∀ depth, runs (depth + 1) = body depth)
    (comes : ComesTo sound context expanding body outcome) :
    ComesTo sound context expanding runs outcome :=
  fun evaluation calm => (comes evaluation calm).succ unfolds

/-- What deeper and deeper runs come to is the outcome of the loop. -/
theorem ComesTo.withLimit
    {runs : Nat → Eval α}
    {outcome : Except Failure α}
    (comes : ComesTo sound context expanding runs outcome) :
    ComesTo sound context expanding (fun _ => Run.withLimit runs) outcome :=
  fun evaluation calm => (comes evaluation calm).withLimit

end Eval

namespace Registry

open Eval

variable {registry : Registry} {kind : NumberKind} {sound : Caches → Prop} {context : Context}
  {expanding : List String} {tree : Expr} {name : String} {outcome : Except Failure Number}

/-- In every such evaluation an expression comes to this outcome. -/
def Comes
    (registry : Registry)
    (kind : NumberKind)
    (sound : Caches → Prop)
    (context : Context)
    (expanding : List String)
    (tree : Expr)
    (outcome : Except Failure Number) : Prop :=
  ComesTo sound context expanding (fun depth => registry.reduceWithin kind depth tree) outcome

theorem comes_number (text : String) :
    registry.Comes kind sound context expanding (.number text) (Number.parse kind text) :=
  (comesTo_lift _).checked.succ fun depth => reduceWithin_number depth text

/-- What a name comes to depends on the bindings and on the expansions. -/
theorem comes_variable
    (looksUp : ∀ evaluation : Evaluation, evaluation.IsCalm sound context expanding →
      Ends (fun depth => lookUp (registry.reduceWithin kind depth) name) evaluation
        fun result final => result = outcome ∧ final.IsCalm sound context expanding) :
    registry.Comes kind sound context expanding (.variable name) outcome :=
  (show ComesTo sound context expanding _ outcome from looksUp).checked.succ
    fun depth => reduceWithin_variable depth name

theorem comes_bound
    {value : Number}
    (bound : context.values.find? name = some value) :
    registry.Comes kind sound context expanding (.variable name) (.ok value) := by
  refine comes_variable fun evaluation calm => ends_state_bind ?_
  rw [calm.context, bound]
  exact ends_pure ⟨rfl, calm⟩

/-- A name that is neither bound nor defined is undefined. -/
theorem comes_undefined
    (unbound : context.values.find? name = none)
    (undefined : context.definitions.find? name = none) :
    registry.Comes kind sound context expanding (.variable name)
      (.error (.undefinedVariable name)) := by
  refine comes_variable fun evaluation calm => ends_state_bind ?_
  rw [calm.context, unbound, undefined]
  exact ends_fail ⟨rfl, calm⟩

section

variable {body : Expr} (unbound : context.values.find? name = none)
  (defined : context.definitions.find? name = some body)

include unbound defined

/-- A definition that is being expanded is recursive. -/
theorem comes_recursive (among : name ∈ expanding) :
    registry.Comes kind sound context expanding (.variable name)
      (.error (.recursiveDefinition name)) := by
  refine comes_variable fun evaluation calm => ends_state_bind ?_
  rw [calm.context, unbound, defined, calm.expanding]
  simp only [List.contains_iff_mem.2 among, if_pos]
  exact ends_fail ⟨rfl, calm⟩

/-- A defined variable comes to what its definition comes to. -/
theorem comes_definition
    (fresh : name ∉ expanding)
    (comes : registry.Comes kind sound context (name :: expanding) body outcome) :
    registry.Comes kind sound context expanding (.variable name) outcome := by
  refine comes_variable fun evaluation calm => ends_state_bind ?_
  rw [calm.context, unbound, defined, calm.expanding]
  simp only [List.contains_iff_mem, fresh, if_neg, not_false_eq_true]
  have deeper : ({ evaluation with expanding := name :: evaluation.expanding } :
      Evaluation).IsCalm sound context (name :: expanding) :=
    ⟨calm.uncancelled, calm.caches, calm.context, congrArg (name :: ·) calm.expanding⟩
  refine ends_change_bind (Ends.thenChange ((comes _ deeper).mono ?_))
  rintro result final ⟨rfl, calm⟩
  exact ⟨rfl, calm.uncancelled, calm.caches, calm.context, congrArg List.tail calm.expanding⟩

end

theorem comesTo_applyToNumbers
    {function : NumberFunction}
    (isFunction : function.IsFunction sound (registry.libraryIn kind))
    (name : String) :
    ∃ result : List Number → Except Failure Number, ∀ context expanding values,
      ComesTo sound context expanding
        (fun _ => registry.applyToNumbers kind name function values) (result values) := by
  choose given ends using isFunction
  refine ⟨fun values => registry.promotions.promote values >>= fun arguments =>
    if function.admits arguments then given arguments else .error (.badArguments name),
    fun context expanding values => (comesTo_lift _).bind fun arguments _ => ?_⟩
  split
  next =>
    intro evaluation calm
    have started := ends arguments evaluation.context evaluation.machine.caches calm.caches
    rw [← calm.machine_eq] at started
    refine Ends.calculateIn (started.mono ?_)
    rintro result machine ⟨rfl, uncancelled, held⟩
    exact ⟨rfl, uncancelled, held, calm.context, calm.expanding⟩
  next => exact comesTo_lift (.error _)

/-- What is applied to numbers is a function of them. -/
theorem IsFunctional.comesTo_applyHead
    (functional : registry.IsFunctional kind sound)
    (ordinary : tree.isOrdinary = true) :
    ∃ result : List Number → Except Failure Number, ∀ context expanding values,
      ComesTo sound context expanding (fun _ => registry.applyHead kind tree values)
        (result values) := by
  match tree, ordinary with
  | .binary .value operator _ _, _ | .unary .value operator _ _, _ =>
      simp only [applyHead]
      cases found : registry.operators.find? operator with
      | none => exact ⟨fun _ => .error (.unknownOperator operator), fun _ _ _ => comesTo_lift _⟩
      | some entry => exact comesTo_applyToNumbers (functional.operators.of_find? found) operator
  | .call .value name _, _ =>
      simp only [applyHead]
      cases found : registry.functions.find? name with
      | none => exact ⟨fun _ => .error (.unknownFunction name), fun _ _ _ => comesTo_lift _⟩
      | some function => exact comesTo_applyToNumbers (functional.functions.of_find? found) name

/-- What an operator or call node of values comes to is a matter of its head and of what its
operands come to, none of which fails if it comes to a value. -/
theorem IsFunctional.comes_ordinary
    (functional : registry.IsFunctional kind sound)
    (ordinary : tree.isOrdinary = true) :
    ∃ result : List Number → Except Failure Number, ∀ context expanding other outcomes,
      other.isOrdinary = true → registry.expect other = registry.expect tree →
        registry.applyHead kind other = registry.applyHead kind tree →
          List.Forall₂ (registry.Comes kind sound context expanding) other.operands outcomes →
            registry.Comes kind sound context expanding other
              (registry.expect tree >>= fun _ => outcomes.mapM id >>= result) := by
  obtain ⟨result, applies⟩ := functional.comesTo_applyHead ordinary
  refine ⟨result, fun context expanding other outcomes ordinary sameNames sameHead every => ?_⟩
  refine ComesTo.succ (fun depth => reduceWithin_of_isOrdinary ordinary depth)
    (ComesTo.checked ?_)
  rw [sameNames, sameHead]
  refine (comesTo_lift _).bind fun _ _ => ?_
  refine (comesTo_mapM (every.imp fun operand outcome comes => ?_)).bind
    fun values _ => applies context expanding values
  have checked : ComesTo sound context expanding
      (fun depth => reduceOperand (registry.reduceWithin kind depth) operand)
      (outcome >>= pure) :=
    ComesTo.bind comes fun value _ => comesTo_check.bind fun _ _ => comesTo_lift (.ok value)
  rwa [bind_pure] at checked

/-- What an expression comes to tells whether a definition depends on itself, and where none does
it is what the expression with its definitions replaced comes to. -/
structure Settles
    (registry : Registry)
    (kind : NumberKind)
    (sound : Caches → Prop)
    (context : Context)
    (expanding : List String)
    (tree : Expr)
    (outcome : Except Failure Number) : Prop where
  comes : registry.Comes kind sound context expanding tree outcome
  free : ∀ value, outcome = .ok value → context.IsFree expanding tree
  expands : context.IsFree expanding tree → ∃ expanded, context.Expands tree expanded
  agrees : context.IsFree expanding tree → ∀ expanded, context.Expands tree expanded →
    ∀ other, registry.Comes kind sound context other expanded outcome

theorem settles_number (text : String) :
    registry.Settles kind sound context expanding (.number text) (Number.parse kind text) where
  comes := comes_number text
  free _ _ := (Context.isFree_operands_iff (by simp)).2 (by simp [Expr.operands])
  expands _ := ⟨_, .number text⟩
  agrees _ expanded expands _ := by
    cases expands
    exact comes_number text

/-- A variable settles when its definition does. -/
theorem exists_settles_variable
    (expansions : ∀ body, context.values.find? name = none →
      context.definitions.find? name = some body → name ∉ expanding →
        ∃ outcome, registry.Settles kind sound context (name :: expanding) body outcome) :
    ∃ outcome, registry.Settles kind sound context expanding (.variable name) outcome := by
  cases unbound : context.values.find? name with
  | some value =>
      refine ⟨.ok value, comes_bound unbound, fun _ _ => ?_, fun _ => ⟨_, .bound unbound⟩, ?_⟩
      · exact Context.isFree_of_bound unbound
      · rintro - expanded expands other
        cases expands with
        | bound | undefined => exact comes_bound unbound
        | definition absent => cases absent.symm.trans unbound
  | none =>
      cases defined : context.definitions.find? name with
      | none =>
          refine ⟨_, comes_undefined unbound defined, nofun, fun _ => ⟨_, .undefined defined⟩, ?_⟩
          rintro - expanded expands other
          cases expands with
          | bound | undefined => exact comes_undefined unbound defined
          | definition _ found => cases found.symm.trans defined
      | some body =>
          have free_iff : context.IsFree expanding (.variable name) ↔
              name ∉ expanding ∧ context.IsFree (name :: expanding) body :=
            Context.isFree_definition_iff unbound defined
          by_cases among : name ∈ expanding
          · refine ⟨_, comes_recursive unbound defined among, nofun, fun free => ?_, fun free => ?_⟩
            · exact absurd among (free_iff.1 free).1
            · exact absurd among (free_iff.1 free).1
          · obtain ⟨outcome, settles⟩ := expansions body unbound defined among
            refine ⟨outcome, comes_definition unbound defined among settles.comes, ?_, ?_, ?_⟩
            · exact fun value same => free_iff.2 ⟨among, settles.free value same⟩
            · intro free
              obtain ⟨expanded, expands⟩ := settles.expands (free_iff.1 free).2
              exact ⟨expanded, .definition unbound defined expands⟩
            · intro free expanded expands other
              cases expands with
              | bound found => cases found.symm.trans unbound
              | undefined absent => cases absent.symm.trans defined
              | definition _ found expands =>
                  obtain rfl := Option.some.inj (defined.symm.trans found)
                  exact settles.agrees (free_iff.1 free).2 expanded expands other

/-- A tree settles when its operands do. -/
theorem IsFunctional.exists_settles_ordinary
    (functional : registry.IsFunctional kind sound)
    (ordinary : tree.isOrdinary = true)
    (operands : ∀ operand ∈ tree.operands,
      ∃ outcome, registry.Settles kind sound context expanding operand outcome) :
    ∃ outcome, registry.Settles kind sound context expanding tree outcome := by
  have named (name : String) : tree ≠ .variable name := by
    rintro rfl
    cases ordinary
  have : Nonempty (Except Failure Number) := ⟨.error .cancelled⟩
  choose! outcomeOf settles using operands
  obtain ⟨result, comes⟩ := functional.comes_ordinary ordinary
  have free_iff : context.IsFree expanding tree ↔
      ∀ operand ∈ tree.operands, context.IsFree expanding operand :=
    Context.isFree_operands_iff named
  refine ⟨registry.expect tree >>= fun _ => (tree.operands.map outcomeOf).mapM id >>= result,
    ?_, ?_, ?_, ?_⟩
  · refine comes context expanding tree _ ordinary rfl rfl ?_
    exact List.forall₂_map_right_iff.2 (List.forall₂_same.2 fun operand member =>
      (settles operand member).comes)
  · intro value same
    refine free_iff.2 fun operand member => ?_
    obtain ⟨_, _, same⟩ := exists_of_bind_eq_ok same
    obtain ⟨values, found, _⟩ := exists_of_bind_eq_ok same
    obtain ⟨value, given⟩ := exists_of_mapM_id_eq_ok found _ (List.mem_map_of_mem member)
    exact (settles operand member).free value given
  · intro free
    have each (operand : Expr) (member : operand ∈ tree.operands) :=
      (settles operand member).expands (free_iff.1 free operand member)
    choose! expandedOf expands using each
    exact Context.exists_expands ordinary
      (List.forall₂_map_right_iff.2 (List.forall₂_same.2 expands))
  · intro free expanded expands other
    obtain ⟨stillOrdinary, sameNames, sameHead, pairs⟩ := expands.ordinary ordinary registry kind
    refine comes context other expanded _ stillOrdinary sameNames sameHead ?_
    refine List.forall₂_map_right_iff.2 (List.Forall₂.flip (List.Forall₂.imp ?_
      ((List.forall₂_and_left _ _).2 ⟨fun operand member => member, pairs⟩)))
    rintro operand inner ⟨member, expands⟩
    exact (settles operand member).agrees (free_iff.1 free operand member) inner expands other

/-- Every expression settles. -/
theorem IsFunctional.exists_settles
    (functional : registry.IsFunctional kind sound)
    (expanding : List String)
    (tree : Expr)
    (plain : context.IsPlain tree) :
    ∃ outcome, registry.Settles kind sound context expanding tree outcome := by
  induction expanding, tree using Expr.expanding_induction context.definitions.names with
  | step expanding tree operands expansions =>
      obtain ⟨reduced, plainOperands, plainDefinition⟩ := Context.isPlain_iff.1 plain
      rcases tree.layers with ⟨text, rfl⟩ | ⟨name, rfl⟩ | ordinary | handedOver
      · exact ⟨_, settles_number text⟩
      · refine exists_settles_variable fun body unbound defined fresh => ?_
        exact expansions name (Table.mem_names_iff.2 ⟨body, defined⟩) fresh body
          (plainDefinition name rfl unbound body defined)
      · exact functional.exists_settles_ordinary ordinary fun operand member =>
          operands operand member (plainOperands operand member)
      · rw [handedOver] at reduced
        cases reduced

/-- What an expression comes to is what it comes to with its definitions replaced, as a value and
as a failure.  Where a definition that it uses depends on itself it comes to a failure. -/
theorem reduce_expands
    (functional : registry.IsFunctional kind sound)
    (context : Context)
    (tree : Expr)
    (plain : context.IsPlain tree) :
    (¬context.IsCircular tree →
      (∃ expanded, context.Expands tree expanded) ∧
        ∀ expanded, context.Expands tree expanded →
          ∃ outcome, ∀ caches, sound caches →
            Ends (fun _ => registry.reduce kind tree) ⟨⟨.never, caches⟩, context, []⟩
                (fun result _ => result = outcome) ∧
              Ends (fun _ => registry.reduce kind expanded) ⟨⟨.never, caches⟩, context, []⟩
                (fun result _ => result = outcome)) ∧
      (context.IsCircular tree →
        ∃ failure, ∀ caches, sound caches →
          Ends (fun _ => registry.reduce kind tree) ⟨⟨.never, caches⟩, context, []⟩
            (fun result _ => result = .error failure)) := by
  have reduces {node : Expr} {outcome : Except Failure Number}
      (comes : registry.Comes kind sound context [] node outcome)
      (caches : Caches)
      (held : sound caches) :
      Ends (fun _ => registry.reduce kind node) ⟨⟨.never, caches⟩, context, []⟩
        (fun result _ => result = outcome) :=
    (comes.withLimit ⟨⟨.never, caches⟩, context, []⟩ ⟨rfl, held, rfl, rfl⟩).mono
      fun _ _ ended => ended.1
  obtain ⟨outcome, settles⟩ := functional.exists_settles [] tree plain
  constructor
  · intro straight
    have free : context.IsFree [] tree := ⟨nofun, straight⟩
    refine ⟨settles.expands free, fun expanded expands => ⟨outcome, fun caches held => ?_⟩⟩
    exact ⟨reduces settles.comes caches held,
      reduces (settles.agrees free expanded expands []) caches held⟩
  · intro circular
    cases result : outcome with
    | ok value => exact absurd circular (settles.free value result).straight
    | error failure =>
        exact ⟨failure, fun caches held => reduces (result ▸ settles.comes) caches held⟩

end Registry

namespace Standard

/-- A sum is a function of its summands. -/
theorem isFunctional_sums (kind : NumberKind) : sums.IsFunctional kind fun _ => True := by
  refine contains_sums fun arguments => ?_
  match arguments with
  | [first, second] => exact ⟨_, fun _ _ _ => ends_lift ⟨rfl, rfl, trivial⟩⟩
  | [] | [_] | _ :: _ :: _ :: _ => exact ⟨_, fun _ _ _ => ends_fail ⟨rfl, rfl, trivial⟩⟩

/-- A definition of `two`. -/
def defining : Context :=
  (Context.withImplementation preciseName).setDefinition "two"
    (.binary .value "+" (.number "1") (.number "1"))

theorem isPlain_one : defining.IsPlain (.number "1") :=
  Context.isPlain_iff.2 ⟨rfl, by simp [Expr.operands], by simp⟩

theorem isPlain_two : defining.IsPlain (.variable "two") := by
  refine Context.isPlain_iff.2 ⟨rfl, by simp [Expr.operands], ?_⟩
  intro name same _ body found
  obtain rfl := Expr.variable.inj same
  obtain rfl : Expr.binary .value "+" (.number "1") (.number "1") = body := Option.some.inj found
  exact Context.isPlain_iff.2 ⟨rfl, by simpa [Expr.operands] using isPlain_one, by simp⟩

theorem isFree_two : defining.IsFree [] (.variable "two") := by
  have one : defining.IsFree ["two"] (.number "1") :=
    (Context.isFree_operands_iff (by simp)).2 (by simp [Expr.operands])
  refine (Context.isFree_definition_iff rfl rfl).2 ⟨List.not_mem_nil, ?_⟩
  exact (Context.isFree_operands_iff (by simp)).2 (by simpa [Expr.operands] using one)

theorem expands_two :
    defining.Expands (.variable "two") (.binary .value "+" (.number "1") (.number "1")) :=
  .definition rfl rfl (.binary _ _ (.number "1") (.number "1"))

/-- A definition that is used twice is not taken for one that depends on itself. -/
theorem reduce_expands_twice :
    sums.IsFunctional .precise (fun _ => True) ∧
      defining.IsPlain (.binary .value "+" (.variable "two") (.variable "two")) ∧
      ¬defining.IsCircular (.binary .value "+" (.variable "two") (.variable "two")) ∧
      ∃ outcome,
        Ends
          (fun _ => sums.reduce .precise
            (.binary .value "+" (.variable "two") (.variable "two")))
            ⟨⟨.never, .empty⟩, defining, []⟩ (fun result _ => result = outcome) ∧
          Ends (fun _ => sums.reduce .precise (.binary .value "+"
              (.binary .value "+" (.number "1") (.number "1"))
              (.binary .value "+" (.number "1") (.number "1"))))
            ⟨⟨.never, .empty⟩, defining, []⟩ (fun result _ => result = outcome) := by
  have plain : defining.IsPlain (.binary .value "+" (.variable "two") (.variable "two")) :=
    Context.isPlain_iff.2 ⟨rfl, by simpa [Expr.operands] using isPlain_two, by simp⟩
  have free : defining.IsFree [] (.binary .value "+" (.variable "two") (.variable "two")) :=
    (Context.isFree_operands_iff (by simp)).2 (by simpa [Expr.operands] using isFree_two)
  obtain ⟨expansion, -⟩ :=
    Registry.reduce_expands (isFunctional_sums .precise) defining _ plain
  obtain ⟨-, agree⟩ := expansion free.straight
  obtain ⟨outcome, ends⟩ := agree _ (.binary .value "+" expands_two expands_two)
  exact ⟨isFunctional_sums .precise, plain, free.straight, outcome, ends .empty trivial⟩

end Standard
end Reckoner
