import Reckoner.Proofs.Evaluation.Representation
import Reckoner.Proofs.Evaluation.SteadyReduction

/-!
# The representation of a reduction

Operators and functions receive their operands in one representation, the highest among them, and
stay in it.  So the number that a reduction comes to is precise if any number is that it has started
from, a literal or the value of a variable, and no promotion fails on the way.
-/

namespace Reckoner

open Run Calc

/-! ## What a reduction starts from -/

namespace Context

/-- The expressions that the reduction of an expression comes by: itself, those among its
operands, and those among the definition of a name that is not a variable. -/
inductive Visits (context : Context) : Expr → Expr → Prop
  | here (tree : Expr) : Visits context tree tree
  | operand
      {tree operand node : Expr}
      (member : operand ∈ tree.operands)
      (visits : Visits context operand node) :
      Visits context tree node
  | definition
      {name : String}
      {tree node : Expr}
      (unbound : context.values.find? name = none)
      (defined : context.definitions.find? name = some tree)
      (visits : Visits context tree node) :
      Visits context (.variable name) node

/-- The number that a literal denotes in a kind, or a variable is bound to. -/
def leaf? (context : Context) (kind : NumberKind) : Expr → Option Number
  | .number text => (Number.parse kind text).toOption
  | .variable name => context.values.find? name
  | _ => none

/-- A number that the reduction of an expression starts from. -/
def StartsFrom (context : Context) (kind : NumberKind) (tree : Expr) (number : Number) : Prop :=
  ∃ node, context.Visits tree node ∧ context.leaf? kind node = some number

/-- None of the expressions that the reduction of an expression comes by is handed over
unreduced. -/
def IsPlain (context : Context) (tree : Expr) : Prop :=
  ∀ node, context.Visits tree node → node.isTreeValue = false

/-- A number is precise exactly if the reduction of an expression starts from a precise number. -/
def Represents (context : Context) (kind : NumberKind) (tree : Expr) (value : Number) : Prop :=
  value.kind = .precise ↔ ∃ number, context.StartsFrom kind tree number ∧ number.kind = .precise

variable {context : Context} {kind : NumberKind} {tree : Expr} {value : Number}

/-- An expression is plain if it is not handed over unreduced itself and what its reduction comes
by next is plain. -/
theorem isPlain_iff :
    context.IsPlain tree ↔
      tree.isTreeValue = false ∧ (∀ operand ∈ tree.operands, context.IsPlain operand) ∧
        ∀ name, tree = .variable name → context.values.find? name = none →
          ∀ body, context.definitions.find? name = some body → context.IsPlain body := by
  constructor
  · intro plain
    refine ⟨plain tree (.here tree), fun operand member node visits => ?_, ?_⟩
    · exact plain node (.operand member visits)
    · rintro name rfl unbound body defined node visits
      exact plain node (.definition unbound defined visits)
  · rintro ⟨reduced, operands, definition⟩ node visits
    cases visits with
    | here => exact reduced
    | operand member visits => exact operands _ member node visits
    | definition unbound defined visits => exact definition _ rfl unbound _ defined node visits

/-- A leaf stands for its own value. -/
theorem represents_of_leaf
    (leafless : tree.operands = [])
    (leaf : context.leaf? kind tree = some value)
    (undefined : ∀ name, tree = .variable name → context.values.find? name ≠ none) :
    context.Represents kind tree value := by
  constructor
  · intro precise
    exact ⟨value, ⟨tree, .here tree, leaf⟩, precise⟩
  · rintro ⟨number, ⟨node, visits, starts⟩, precise⟩
    cases visits with
    | here =>
        obtain rfl := Option.some.inj (leaf.symm.trans starts)
        exact precise
    | operand member _ =>
        rw [leafless] at member
        cases member
    | definition unbound _ _ => exact absurd unbound (undefined _ rfl)

theorem represents_number
    {text : String}
    (parses : Number.parse kind text = .ok value) :
    context.Represents kind (.number text) value :=
  represents_of_leaf rfl (by rw [leaf?, parses]; rfl) fun _ absurdity => by cases absurdity

theorem represents_variable
    {name : String}
    (bound : context.values.find? name = some value) :
    context.Represents kind (.variable name) value := by
  refine represents_of_leaf rfl bound fun other same => ?_
  obtain rfl := Expr.variable.inj same
  simp [bound]

/-- A name that is not a variable stands for its definition. -/
theorem Represents.of_definition
    {name : String}
    (represents : context.Represents kind tree value)
    (unbound : context.values.find? name = none)
    (defined : context.definitions.find? name = some tree) :
    context.Represents kind (.variable name) value := by
  refine represents.trans ⟨?_, ?_⟩
  · rintro ⟨number, ⟨node, visits, starts⟩, precise⟩
    exact ⟨number, ⟨node, .definition unbound defined visits, starts⟩, precise⟩
  · rintro ⟨number, ⟨node, visits, starts⟩, precise⟩
    cases visits with
    | here =>
        rw [leaf?, unbound] at starts
        cases starts
    | operand member _ => cases member
    | definition _ other visits =>
        obtain rfl := Option.some.inj (defined.symm.trans other)
        exact ⟨number, ⟨node, visits, starts⟩, precise⟩

end Context

/-! ## Operands -/

/-- The higher one of two kinds of numbers. -/
def NumberKind.wider : (first second : NumberKind) → NumberKind
  | .fast, second => second
  | .precise, _ => .precise

theorem NumberKind.wider_assoc (first second third : NumberKind) :
    (first.wider second).wider third = first.wider (second.wider third) := by
  cases first <;> rfl

/-- The wider of two representations is precise when one of them is. -/
theorem NumberKind.wider_eq_precise_iff {first second : NumberKind} :
    first.wider second = .precise ↔ first = .precise ∨ second = .precise := by
  cases first <;> simp [wider]

/-- The highest one of the kinds of numbers. -/
def Number.widest (numbers : List Number) : NumberKind :=
  numbers.foldr (fun number kind => number.kind.wider kind) .fast

theorem Number.widest_cons (number : Number) (numbers : List Number) :
    widest (number :: numbers) = number.kind.wider (widest numbers) := rfl

/-- The widest representation is precise when a number is. -/
theorem Number.widest_eq_precise_iff {numbers : List Number} :
    widest numbers = .precise ↔ ∃ number ∈ numbers, number.kind = .precise := by
  induction numbers with
  | nil => simp [widest]
  | cons number numbers hypothesis =>
      rw [widest_cons, NumberKind.wider_eq_precise_iff, hypothesis]
      simp

namespace Context

variable {context : Context} {kind : NumberKind} {tree : Expr} {value : Number}

/-- The reduction of an operator node starts from what those of its operands start from. -/
theorem startsFrom_iff_of_operands
    (inner : tree.operands ≠ [])
    {number : Number} :
    context.StartsFrom kind tree number ↔
      ∃ operand ∈ tree.operands, context.StartsFrom kind operand number := by
  have leafless : context.leaf? kind tree = none := by
    cases tree with
    | number _ | «variable» _ => exact absurd rfl inner
    | binary _ _ _ _ | unary _ _ _ _ | call _ _ _ => rfl
  constructor
  · rintro ⟨node, visits, starts⟩
    cases visits with
    | here =>
        rw [leafless] at starts
        cases starts
    | operand member visits => exact ⟨_, member, node, visits, starts⟩
    | definition _ _ _ => exact absurd rfl inner
  · rintro ⟨operand, member, node, visits, starts⟩
    exact ⟨node, .operand member visits, starts⟩

/-- A value of an operand is precise exactly when a leaf below it is. -/
theorem exists_precise_iff
    {operands : List Expr}
    {values : List Number}
    (related : List.Forall₂ (context.Represents kind) operands values) :
    (∃ value ∈ values, value.kind = .precise) ↔
      ∃ operand ∈ operands, ∃ number,
        context.StartsFrom kind operand number ∧ number.kind = .precise := by
  induction related with
  | nil => simp
  | cons first _ hypothesis =>
      simp only [List.mem_cons, exists_eq_or_imp, hypothesis]
      exact or_congr first Iff.rfl

/-- An operator node is precise if any operand is. -/
theorem represents_of_operands
    {values : List Number}
    (inner : tree.operands ≠ [])
    (related : List.Forall₂ (context.Represents kind) tree.operands values)
    (same : value.kind = Number.widest values) :
    context.Represents kind tree value := by
  rw [Represents, same, Number.widest_eq_precise_iff, exists_precise_iff related]
  simp only [startsFrom_iff_of_operands inner]
  constructor
  · rintro ⟨operand, member, number, starts, precise⟩
    exact ⟨number, ⟨operand, member, starts⟩, precise⟩
  · rintro ⟨number, ⟨operand, member, starts⟩, precise⟩
    exact ⟨operand, member, number, starts, precise⟩

end Context

/-! ## Reduction -/

/-- The caches of an evaluation keep numbers under their kinds; its context is the one that it must
have, if there is one. -/
def Evaluation.Keeps (fixed : Option Context) (evaluation : Evaluation) : Prop :=
  evaluation.machine.caches.OfKinds ∧ ∀ context ∈ fixed, evaluation.context = context

namespace Registry

/-- A function of numbers that stays in the kind of its arguments, of which it needs at least
one. -/
def UniformNumbers (registry : Registry) (function : NumberFunction) : Prop :=
  function.admits [] = false ∧ ∀ literals context kind arguments, OfKind kind arguments →
    StaysIn kind (function.apply (registry.libraryIn literals context) arguments)

/-- A function of unreduced expressions that does nothing but reduce and bind, so that no promotion
fails in it unless one fails in a reduction. -/
def UniformTrees (function : TreeFunction) : Prop :=
  ∀ (holds : Evaluation → Prop) (reducer : Reducer) (trees : List Expr),
    function.admits trees = true →
    (∀ evaluation context, holds evaluation → holds { evaluation with context }) →
    (∀ tree, (reducer.reduce tree).Preserves holds Failure.IsLocal) →
      (function.apply reducer trees).Preserves holds Failure.IsLocal

/-- What is registered stays in one kind, and numbers can be brought to the highest kind among
them. -/
structure IsUniform (registry : Registry) : Prop where
  contains : registry.Contains registry.UniformNumbers UniformTrees
  promotes : ∀ numbers, numbers ≠ [] →
    OfKind (Number.widest numbers) (registry.promotions.promote numbers)

variable {registry : Registry} {kind : NumberKind} {fixed : Option Context}

theorem ensures_calculate
    {α : Type}
    [Numeric α]
    {calculation : Calc α}
    (stays : StaysIn kind calculation) :
    (Eval.calculate calculation).Ensures (Evaluation.Keeps fixed) (OfKind kind)
      Failure.IsLocal :=
  (Ensures.within stays (fun _ held => held.1) fun _ _ after held => ⟨after, held.2⟩).excuse
    fun _ inside => inside.1

theorem ensures_calculateIn
    {α : Type}
    [Numeric α]
    {calculation : Context → Calc α}
    (stays : ∀ context, StaysIn kind (calculation context)) :
    (Eval.calculateIn calculation).Ensures (Evaluation.Keeps fixed) (OfKind kind)
      Failure.IsLocal :=
  fun limit evaluation => ensures_calculate (stays evaluation.context) limit evaluation

theorem preserves_check : Eval.check.Preserves (Evaluation.Keeps fixed) Failure.IsLocal := by
  have stays : StaysIn .fast Calc.check := staysIn_check
  exact (ensures_calculate stays).mono fun _ _ => trivial

/-- Functions give the widest representation of their arguments. -/
theorem IsUniform.applyToNumbers
    (uniform : registry.IsUniform)
    {function : NumberFunction}
    (stays : registry.UniformNumbers function)
    (name : String)
    (numbers : List Number) :
    (registry.applyToNumbers kind name function numbers).Ensures (Evaluation.Keeps fixed)
      (fun value => numbers ≠ [] ∧ value.kind = Number.widest numbers) Failure.IsLocal := by
  obtain ⟨needsOne, stays⟩ := stays
  unfold Registry.applyToNumbers
  by_cases absent : numbers = []
  · subst absent
    have nothing : registry.promotions.promote [] = .ok [] := rfl
    rw [nothing]
    refine Ensures.bind (ensures_ofResult (fun _ same => same) fun _ fails => by cases fails)
      fun arguments same => ?_
    obtain rfl := Except.ok.inj same
    rw [needsOne]
    exact ensures_fail (Failure.isLocal_badArguments _)
  · have promoted : Run.Ensures (Evaluation.Keeps fixed) (OfKind (Number.widest numbers))
        Failure.IsLocal (liftM (registry.promotions.promote numbers) : Eval (List Number)) :=
      (ensures_lift (uniform.promotes numbers absent)).excuse fun _ inside => inside.1
    refine promoted.bind fun arguments fine => ?_
    split
    next =>
      exact (ensures_calculateIn fun context => stays kind context _ arguments fine).mono
        fun _ same => ⟨absent, same⟩
    next => exact ensures_fail (Failure.isLocal_badArguments _)

theorem preserves_applyToTrees
    {function : TreeFunction}
    {reducer : Reducer}
    (uniform : UniformTrees function)
    (reduces : ∀ tree, (reducer.reduce tree).Preserves (Evaluation.Keeps none) Failure.IsLocal)
    (name : String)
    (trees : List Expr) :
    (applyToTrees reducer name function trees).Preserves (Evaluation.Keeps none)
      Failure.IsLocal := by
  unfold applyToTrees
  split
  next admitted =>
    exact uniform _ reducer trees admitted
      (fun _ _ held => ⟨held.1, fun _ absent => by cases absent⟩)
      reduces
  next => exact preserves_fail (Failure.isLocal_badArguments _)

/-- What is said of the number that an expression reduces to in the context that it must have. -/
def Represented
    (fixed : Option Context)
    (kind : NumberKind)
    (tree : Expr)
    (value : Number) : Prop :=
  ∀ context ∈ fixed, context.Represents kind tree value

/-- A variable represents its value or what its definition represents. -/
theorem ensures_lookUp
    {reduce : Expr → Eval Number}
    (reduces : ∀ tree, (∀ context ∈ fixed, context.IsPlain tree) →
      (reduce tree).Ensures (Evaluation.Keeps fixed) (Represented fixed kind tree)
        Failure.IsLocal)
    {name : String}
    (plain : ∀ context ∈ fixed, context.IsPlain (.variable name)) :
    (lookUp reduce name).Ensures (Evaluation.Keeps fixed)
      (Represented fixed kind (.variable name)) Failure.IsLocal := by
  refine ensures_state_bind fun evaluation held => ?_
  have same (context : Context) (member : context ∈ fixed) := held.2 context member
  split
  next value bound =>
    refine ensures_pure fun context member => ?_
    exact Context.represents_variable (same context member ▸ bound)
  next unbound =>
    split
    next => exact ensures_fail (by simp)
    next tree defined =>
      split
      next => exact ensures_fail (by simp)
      next =>
        refine Ensures.bind (ensures_change ?_) fun _ _ => ?_
        · exact fun _ held => held
        refine ((reduces tree fun context member => ?_).mono fun value represented context member =>
          ?_).thenChange fun _ held => held
        · exact (Context.isPlain_iff.1 (plain context member)).2.2 name rfl
            (same context member ▸ unbound) tree (same context member ▸ defined)
        · exact (represented context member).of_definition (same context member ▸ unbound)
            (same context member ▸ defined)

theorem ensures_reduceOperand
    {reduce : Expr → Eval Number}
    {operand : Expr}
    {given : Number → Prop}
    (ensures : (reduce operand).Ensures (Evaluation.Keeps fixed) given Failure.IsLocal) :
    (reduceOperand reduce operand).Ensures (Evaluation.Keeps fixed) given Failure.IsLocal :=
  ensures.bind fun _ fine => Ensures.bind preserves_check fun _ _ => ensures_pure fine

/-- A value in the widest representation of the operands is represented by the tree. -/
theorem represented_of_operands
    {tree : Expr}
    {values : List Number}
    {value : Number}
    (related : List.Forall₂ (Represented fixed kind) tree.operands values)
    (same : values ≠ [] ∧ value.kind = Number.widest values) :
    Represented fixed kind tree value := by
  intro context member
  refine Context.represents_of_operands ?_
    (related.imp fun _ _ every => every context member) same.2
  rintro inner
  rw [inner] at related
  exact same.1 (List.forall₂_nil_left_iff.1 related)

/-- The head of a tree gives the widest representation of its operands. -/
theorem IsUniform.ensures_applyHead
    (uniform : registry.IsUniform)
    {tree : Expr}
    {values : List Number}
    (related : List.Forall₂ (Represented fixed kind) tree.operands values) :
    (registry.applyHead kind tree values).Ensures (Evaluation.Keeps fixed)
      (Represented fixed kind tree) Failure.IsLocal := by
  rcases uniform.contains.applyHead_cases kind tree with ⟨name, function, stays, same⟩ |
    ⟨failure, reduction, same⟩ | same
  · rw [same]
    exact (uniform.applyToNumbers stays name values).mono fun _ kinds =>
      represented_of_operands related kinds
  · rw [same]
    exact ensures_fail (Failure.isLocal_of_category reduction)
  · rw [same]
    exact ensures_goOn

theorem IsUniform.preserves_handOver
    (uniform : registry.IsUniform)
    {reducer : Reducer}
    (reduces : ∀ tree, (reducer.reduce tree).Preserves (Evaluation.Keeps none) Failure.IsLocal)
    (tree : Expr) :
    (registry.handOver reducer tree).Preserves (Evaluation.Keeps none) Failure.IsLocal := by
  rcases uniform.contains.handOver_cases tree with ⟨name, function, applies, same⟩ |
    ⟨failure, reduction, same⟩ | same
  · rw [same]
    exact preserves_applyToTrees applies reduces name tree.operands
  · rw [same]
    exact preserves_fail (Failure.isLocal_of_category reduction)
  · rw [same]
    exact preserves_goOn

/-- An expression that is handed over unreduced does not occur where the context must stay. -/
theorem ensures_of_isTreeValue
    {tree : Expr}
    {run : Eval Number}
    (plain : ∀ context ∈ fixed, context.IsPlain tree)
    (handedOver : tree.isTreeValue = true)
    (preserves : run.Preserves (Evaluation.Keeps none) Failure.IsLocal) :
    run.Ensures (Evaluation.Keeps fixed) (Represented fixed kind tree) Failure.IsLocal := by
  cases fixed with
  | none => exact preserves.mono fun _ _ _ absent => by cases absent
  | some context =>
      have reduced := (Context.isPlain_iff.1 (plain context rfl)).1
      rw [handedOver] at reduced
      cases reduced

/-- A reduction has no promotion fail, whatever its context.  If the context is known and nothing is
handed over unreduced on the way, then the context stays, and so the kind of the result is known. -/
theorem IsUniform.reduceWithin
    (uniform : registry.IsUniform)
    (depth : Nat)
    {tree : Expr}
    (plain : ∀ context ∈ fixed, context.IsPlain tree) :
    (registry.reduceWithin kind depth tree).Ensures (Evaluation.Keeps fixed)
      (Represented fixed kind tree) Failure.IsLocal := by
  induction depth generalizing tree fixed with
  | zero => exact ensures_goOn
  | succ depth hypothesis =>
      have operands (operand : Expr) (inner : operand ∈ tree.operands) :
          (reduceOperand (registry.reduceWithin kind depth) operand).Ensures
            (Evaluation.Keeps fixed) (Represented fixed kind operand) Failure.IsLocal :=
        ensures_reduceOperand (hypothesis fun context member =>
          (Context.isPlain_iff.1 (plain context member)).2.1 operand inner)
      -- what is handed over may bind names, so that nothing is known of the context inside
      have unknown (tree : Expr) :
          (registry.reduceWithin kind depth tree).Preserves (Evaluation.Keeps none)
            Failure.IsLocal :=
        (hypothesis fun _ absent => by cases absent).mono fun _ _ => trivial
      rcases tree.layers with ⟨text, rfl⟩ | ⟨name, rfl⟩ | ordinary | handedOver
      · rw [reduceWithin_number]
        refine Ensures.bind preserves_check fun _ _ => ensures_ofResult (fun value parses => ?_)
          fun failure fails => Number.isLocal_of_parse fails
        exact fun context _ => Context.represents_number parses
      · rw [reduceWithin_variable]
        exact Ensures.bind preserves_check fun _ _ =>
          ensures_lookUp (fun _ inner => hypothesis inner) plain
      · rw [reduceWithin_of_isOrdinary ordinary]
        refine Ensures.bind preserves_check fun _ _ => ?_
        have expects : Run.Ensures (Evaluation.Keeps fixed) (fun _ => True) Failure.IsLocal
            (liftM (registry.expect tree) : Eval Unit) :=
          ensures_ofResult (fun _ _ => trivial) fun _ fails =>
            Failure.isLocal_of_category (category_of_expect fails)
        refine expects.bind fun _ _ => ?_
        exact (ensures_mapM operands).bind fun _ related => uniform.ensures_applyHead related
      · rw [reduceWithin_of_isTreeValue handedOver]
        exact Ensures.bind preserves_check fun _ _ =>
          ensures_of_isTreeValue plain handedOver (uniform.preserves_handOver unknown tree)

/-- The reduction of a plain tree gives the representation that its leaves call for. -/
theorem IsUniform.reduce
    (uniform : registry.IsUniform)
    {tree : Expr}
    (plain : ∀ context ∈ fixed, context.IsPlain tree) :
    (registry.reduce kind tree).Ensures (Evaluation.Keeps fixed) (Represented fixed kind tree)
      Failure.IsLocal :=
  ensures_withLimit fun depth => uniform.reduceWithin depth plain

/-! ## Evaluation -/

theorem IsUniform.withCaches
    (uniform : registry.IsUniform)
    (caches : Caches) :
    ({ registry with caches } : Registry).IsUniform where
  contains := uniform.contains.withCaches caches
  promotes := uniform.promotes

/-- An evaluation keeps numbers under their kinds, and no promotion fails in it.  If nothing is
handed over unreduced on the way, then the kind of its result is that of what it starts from. -/
theorem IsUniform.evaluate
    (uniform : registry.IsUniform)
    (held : registry.caches.OfKinds)
    (limit : Nat)
    (context : Context)
    (tree : Expr)
    (cancellation : Cancellation) :
    (Reckoner.evaluate limit registry context tree cancellation).machine.caches.OfKinds ∧
      (∀ failure, (Reckoner.evaluate limit registry context tree cancellation).result =
        .error (.failed failure) → failure.IsLocal) ∧
      (context.IsPlain tree → ∀ done,
        (Reckoner.evaluate limit registry context tree cancellation).result = .ok done →
          ∃ kind, registry.kindOf context = .ok kind ∧
            context.Represents kind tree done.value) := by
  unfold Reckoner.evaluate
  cases known : registry.kindOf context with
  | error unknown =>
      refine ⟨held, fun failure same => ?_, fun _ done same => by cases same⟩
      obtain rfl : unknown = failure := by simpa using same
      exact Failure.isLocal_of_category (category_of_kindOf known)
  | ok kind =>
      have reduces : (registry.reduce kind tree).Ensures (Evaluation.Keeps none)
          (Represented none kind tree) Failure.IsLocal :=
        uniform.reduce fun _ absent => by cases absent
      have reducesPlain (plain : context.IsPlain tree) :
          (registry.reduce kind tree).Ensures (Evaluation.Keeps (some context))
            (Represented (some context) kind tree) Failure.IsLocal :=
        uniform.reduce (by simpa using plain)
      obtain ⟨keeps, _, isLocal⟩ := reduces limit
        ⟨⟨cancellation, registry.caches⟩, context, []⟩ ⟨held, fun _ absent => by cases absent⟩
      have represents (plain : context.IsPlain tree) := (reducesPlain plain limit
        ⟨⟨cancellation, registry.caches⟩, context, []⟩ ⟨held, by simp⟩).2.1
      dsimp only
      rcases ran : registry.reduce kind tree limit ⟨⟨cancellation, registry.caches⟩, context, []⟩
        with ⟨stop | value, after⟩
      · rw [ran] at keeps isLocal
        refine ⟨keeps.1, fun failure same => isLocal failure ?_, fun _ done same => by cases same⟩
        exact congrArg Except.error (Except.error.inj same)
      · rw [ran] at keeps represents
        refine ⟨keeps.1, fun _ same => (by cases same), fun plain done same => ?_⟩
        obtain rfl := Except.ok.inj same
        exact ⟨kind, rfl, represents plain value rfl context rfl⟩

end Registry

end Reckoner
