import Reckoner.Proofs.Evaluation.Expansion

/-!
# Values that are reached again

An expression that makes no assignments and has come to a value comes to it in the same way
whatever is being expanded, as long as it uses none of these definitions.  It does not use its
own definition either, having come to a value, and so the name that it is defined as comes to
this value, too.
-/

namespace Reckoner

open Run

/-! ## Assignments -/

/-- Whether an expression is an assignment. -/
def Expr.isAssignment : Expr → Bool
  | .binary .tree operator _ _ => operator == "=" || operator == ":="
  | _ => false

namespace Context

/-- The reduction of an expression comes by no assignment. -/
def IsAssignmentFree (context : Context) (tree : Expr) : Prop :=
  ∀ node, context.Visits tree node → node.isAssignment = false

variable {context : Context} {tree : Expr}

/-- The operands of a tree that assigns nothing assign nothing. -/
theorem IsAssignmentFree.operand
    {operand : Expr}
    (free : context.IsAssignmentFree tree)
    (member : operand ∈ tree.operands) :
    context.IsAssignmentFree operand :=
  fun node visits => free node (.operand member visits)

/-- A variable that assigns nothing has a definition that assigns nothing. -/
theorem IsAssignmentFree.definition
    {name : String}
    {body : Expr}
    (free : context.IsAssignmentFree (.variable name))
    (unbound : context.values.find? name = none)
    (defined : context.definitions.find? name = some body) :
    context.IsAssignmentFree body :=
  fun node visits => free node (.definition unbound defined visits)

theorem isAssignmentFree_number (text : String) : context.IsAssignmentFree (.number text) := by
  intro node visits
  cases visits with
  | here => rfl
  | operand member _ => cases member

theorem isAssignmentFree_variable
    {name : String}
    {body : Expr}
    (defined : context.definitions.find? name = some body)
    (free : context.IsAssignmentFree body) :
    context.IsAssignmentFree (.variable name) := by
  intro node visits
  cases visits with
  | here => rfl
  | operand member _ => cases member
  | definition _ found further =>
      obtain rfl := Option.some.inj (defined.symm.trans found)
      exact free node further

/-- What is visited on the way is visited. -/
theorem Visits.trans
    {middle node : Expr}
    (first : context.Visits tree middle)
    (second : context.Visits middle node) :
    context.Visits tree node := by
  induction first with
  | here => exact second
  | operand member _ hypothesis => exact .operand member (hypothesis second)
  | definition unbound defined _ hypothesis => exact .definition unbound defined (hypothesis second)

/-- To define a name as an expression brings the expression to nothing new. -/
theorem IsAssignmentFree.setDefinition
    (free : context.IsAssignmentFree tree)
    (name : String) :
    (context.setDefinition name tree).IsAssignmentFree tree := by
  have known {start node : Expr} (visits : (context.setDefinition name tree).Visits start node)
      (reached : context.Visits tree start) : context.Visits tree node := by
    induction visits with
    | here => exact reached
    | operand member _ hypothesis =>
        exact hypothesis (reached.trans (.operand member (.here _)))
    | definition unbound defined _ hypothesis =>
        rw [Context.setDefinition, Table.find?_insert] at defined
        split at defined
        next =>
          obtain rfl := Option.some.inj defined
          exact hypothesis (.here tree)
        next => exact hypothesis (reached.trans (.definition unbound defined (.here _)))
  exact fun node visits => free node (known visits (.here tree))

/-- An expression that is free does not use a definition as the expression itself. -/
theorem IsFree.while_expanding
    {name : String}
    (free : context.IsFree [] tree)
    (defined : context.definitions.find? name = some tree) :
    context.IsFree [name] tree := by
  refine ⟨fun other among body uses => ?_, free.straight⟩
  obtain rfl := List.mem_singleton.1 among
  obtain rfl := Option.some.inj (defined.symm.trans uses.defined)
  exact free.straight ⟨other, tree, uses, uses⟩

end Context

/-! ## Other expansions -/

namespace Run

variable {σ α β : Type}

theorem state_eq (limit : Nat) (start : σ) : state limit start = (.ok start, start) := rfl

theorem change_eq (update : σ → σ) (limit : Nat) (start : σ) :
    change update limit start = (.ok (), update start) := rfl

/-- A run that is followed by another one and gives a value in the end has given one before. -/
theorem exists_of_bind_run_eq_ok
    {run : Run σ α}
    {next : α → Run σ β}
    {limit : Nat}
    {start final : σ}
    {value : β}
    (ran : (run >>= next) limit start = (.ok value, final)) :
    ∃ middle between, run limit start = (.ok middle, between) ∧
      next middle limit between = (.ok value, final) := by
  rcases first : run limit start with ⟨stop | middle, between⟩
  · rw [bind_of_error first] at ran
    cases ran
  · rw [bind_of_ok first] at ran
    exact ⟨middle, between, rfl, ran⟩

end Run

namespace Eval

variable {context : Context} {expanding : List String} {free also : List String → Prop} {α β : Type}

/-- A run that gives a value while some definitions are being expanded is free of them, leaves
them and the bindings as they are, and gives the value in the same way while any others are being
expanded that it is free of. -/
def Shifts
    (context : Context)
    (expanding : List String)
    (free : List String → Prop)
    (run : Eval α) : Prop :=
  ∀ limit machine value final, run limit ⟨machine, context, expanding⟩ = (.ok value, final) →
    free expanding ∧ ∃ after, final = ⟨after, context, expanding⟩ ∧
      ∀ other, free other →
        run limit ⟨machine, context, other⟩ = (.ok value, ⟨after, context, other⟩)

theorem shifts_fail (failure : Failure) : Shifts context expanding free (fail failure : Eval α) :=
  fun _ _ _ _ ran => nomatch ran

theorem shifts_goOn : Shifts context expanding free (goOn : Eval α) :=
  fun _ _ _ _ ran => nomatch ran

theorem shifts_calculate (compute : Calc α) :
    Shifts context expanding (fun _ => True) (Eval.calculate compute) := by
  intro limit machine value final ran
  have steps (other : List String) : Eval.calculate compute limit ⟨machine, context, other⟩ =
      ((compute limit machine).1, ⟨(compute limit machine).2, context, other⟩) := rfl
  rw [steps] at ran
  obtain ⟨gives, rfl⟩ := Prod.mk.inj ran
  exact ⟨trivial, _, rfl, fun other _ => by rw [steps, gives]⟩

theorem shifts_calculateIn (compute : Context → Calc α) :
    Shifts context expanding (fun _ => True) (Eval.calculateIn compute) :=
  fun limit machine value final ran =>
    shifts_calculate (compute context) limit machine value final ran

theorem shifts_lift (outcome : Except Failure α) :
    Shifts context expanding (fun _ => True) (liftM outcome : Eval α) := by
  intro limit machine value final ran
  cases outcome with
  | error failure => cases ran
  | ok given =>
      obtain ⟨gives, rfl⟩ := Prod.mk.inj ran
      exact ⟨trivial, machine, rfl, fun other _ => congrArg (·, _) gives⟩

/-- What shifts in steps shifts where every step does. -/
theorem Shifts.bind
    {run : Eval α}
    {next : α → Eval β}
    (first : Shifts context expanding free run)
    (second : ∀ value, Shifts context expanding also (next value)) :
    Shifts context expanding (fun other => free other ∧ also other) (run >>= next) := by
  intro limit machine value final ran
  obtain ⟨middle, between, ran, ranOn⟩ := exists_of_bind_run_eq_ok ran
  obtain ⟨isFree, machineBetween, rfl, again⟩ := first limit machine middle between ran
  obtain ⟨isAlso, after, rfl, againOn⟩ := second middle limit machineBetween value final ranOn
  refine ⟨⟨isFree, isAlso⟩, after, rfl, fun other bothFree => ?_⟩
  exact (bind_of_ok (again other bothFree.1) _).trans (againOn other bothFree.2)

theorem Shifts.congr
    {run : Eval α}
    (shifts : Shifts context expanding free run)
    (same : ∀ other, free other ↔ also other) :
    Shifts context expanding also run :=
  funext (fun other => propext (same other)) ▸ shifts

theorem Shifts.checked
    {run : Eval α}
    (shifts : Shifts context expanding free run) :
    Shifts context expanding free (Eval.check >>= fun _ => run) :=
  ((shifts_calculate Calc.check).bind fun _ => shifts).congr fun _ => iff_of_eq (true_and _)

/-- A walk shifts where all of its steps do. -/
theorem shifts_mapM
    {γ : Type}
    {function : γ → Eval α}
    {values : List γ}
    {frees : γ → List String → Prop}
    (every : ∀ value ∈ values, Shifts context expanding (frees value) (function value)) :
    Shifts context expanding (fun other => ∀ value ∈ values, frees value other)
      (values.mapM function) := by
  induction values with
  | nil =>
      rw [List.mapM_nil]
      exact (shifts_lift (.ok [])).congr (by simp)
  | cons first rest hypothesis =>
      rw [List.mapM_cons]
      have others := hypothesis fun value member => every value (List.mem_cons_of_mem first member)
      refine Shifts.congr ((every first List.mem_cons_self).bind fun value =>
        others.bind fun values => shifts_lift (.ok (value :: values))) fun other => ?_
      rw [List.forall_mem_cons, and_true]

end Eval

namespace Registry

open Eval

variable {registry : Registry} {kind : NumberKind} {context : Context} {expanding : List String}
  {tree : Expr} {name : String}

/-- A name comes to a value if it is bound to it, or if its definition comes to it while the name
is being expanded, which it must not have been before. -/
theorem lookUp_eq_ok_iff
    {reduce : Expr → Eval Number}
    {value : Number}
    {limit : Nat}
    {evaluation final : Evaluation} :
    lookUp reduce name limit evaluation = (.ok value, final) ↔
      (evaluation.context.values.find? name = some value ∧ final = evaluation) ∨
      ∃ body between,
        evaluation.context.values.find? name = none ∧
        evaluation.context.definitions.find? name = some body ∧
        name ∉ evaluation.expanding ∧
        reduce body limit { evaluation with expanding := name :: evaluation.expanding } =
          (.ok value, between) ∧
        final = { between with expanding := between.expanding.tail } := by
  unfold lookUp
  rw [bind_of_ok (state_eq limit evaluation)]
  cases evaluation.context.values.find? name with
  | some known =>
      have gives : (pure known : Eval Number) limit evaluation = (.ok known, evaluation) := rfl
      simp [gives, eq_comm]
  | none =>
      cases evaluation.context.definitions.find? name with
      | none => simp [fail]
      | some body =>
          by_cases among : name ∈ evaluation.expanding
          · simp [among, fail]
          · dsimp only
            rw [if_neg (by simpa using among), bind_of_ok (change_eq _ _ _), thenChange]
            rcases expands : reduce body limit
              { evaluation with expanding := name :: evaluation.expanding } with ⟨outcome, between⟩
            constructor
            · intro same
              obtain ⟨rfl, rfl⟩ := Prod.mk.inj same
              exact .inr ⟨body, between, rfl, rfl, among, expands, rfl⟩
            · rintro (⟨bound, _⟩ | ⟨_, _, _, same, _, again, rfl⟩)
              · cases bound
              · obtain rfl := Option.some.inj same
                obtain ⟨rfl, rfl⟩ := Prod.mk.inj (expands.symm.trans again)
                rfl

theorem shifts_applyToNumbers (name : String) (function : NumberFunction) (numbers : List Number) :
    Shifts context expanding (fun _ => True)
      (registry.applyToNumbers kind name function numbers) := by
  unfold applyToNumbers
  refine ((shifts_lift _).bind fun arguments => ?_).congr fun _ => and_self_iff
  split
  next => exact shifts_calculateIn _
  next => exact shifts_fail _

/-- The head of a tree never looks at what is being expanded. -/
theorem shifts_applyHead (tree : Expr) (values : List Number) :
    Shifts context expanding (fun _ => True) (registry.applyHead kind tree values) := by
  rcases registry.applyHead_cases kind tree with ⟨name, function, same⟩ | ⟨failure, same⟩ | same
  · exact same values ▸ shifts_applyToNumbers name function values
  · exact same values ▸ shifts_fail failure
  · exact same values ▸ shifts_goOn

/-- A name is looked up in the same way while others are being expanded, as its definition is
reduced. -/
theorem shifts_lookUp
    {reduce : Expr → Eval Number}
    (reduces : ∀ body, context.values.find? name = none →
      context.definitions.find? name = some body →
        Shifts context (name :: expanding) (context.IsFree · body) (reduce body)) :
    Shifts context expanding (context.IsFree · (.variable name)) (lookUp reduce name) := by
  intro limit machine value final ran
  rcases lookUp_eq_ok_iff.1 ran with
    ⟨bound, rfl⟩ | ⟨body, between, unbound, defined, fresh, expands, rfl⟩
  · exact ⟨Context.isFree_of_bound bound, machine, rfl,
      fun other _ => lookUp_eq_ok_iff.2 (.inl ⟨bound, rfl⟩)⟩
  · obtain ⟨isFree, after, rfl, again⟩ := reduces body unbound defined limit machine value _ expands
    have named (other : List String) : context.IsFree other (.variable name) ↔
        name ∉ other ∧ context.IsFree (name :: other) body :=
      Context.isFree_definition_iff unbound defined
    refine ⟨(named expanding).2 ⟨fresh, isFree⟩, after, rfl, fun other freeThere => ?_⟩
    obtain ⟨freshThere, freeThere⟩ := (named other).1 freeThere
    exact lookUp_eq_ok_iff.2 (.inr ⟨body, _, unbound, defined, freshThere, again _ freeThere, rfl⟩)

/-- What an expression without assignments comes to it comes to in the same way while other
definitions are being expanded, unless it uses one of these. -/
theorem OnlyAssigns.shifts_reduceWithin
    (only : registry.OnlyAssigns)
    (depth : Nat)
    (free : context.IsAssignmentFree tree) :
    Shifts context expanding (context.IsFree · tree) (registry.reduceWithin kind depth tree) := by
  induction depth generalizing expanding tree with
  | zero => exact shifts_goOn
  | succ depth hypothesis =>
      rcases tree.layers with ⟨text, rfl⟩ | ⟨name, rfl⟩ | ordinary | handedOver
      · rw [reduceWithin_number]
        refine Shifts.checked ((shifts_lift _).congr fun other => ?_)
        rw [Context.isFree_operands_iff (by simp)]
        simp [Expr.operands]
      · rw [reduceWithin_variable]
        exact Shifts.checked (shifts_lookUp fun body unbound defined =>
          hypothesis (free.definition unbound defined))
      · have named (name : String) : tree ≠ .variable name := by
          rintro rfl
          cases ordinary
        have operands : Shifts context expanding
            (fun other => ∀ operand ∈ tree.operands, context.IsFree other operand)
            (tree.operands.mapM (reduceOperand (registry.reduceWithin kind depth))) := by
          refine shifts_mapM fun operand member => ?_
          exact ((hypothesis (free.operand member)).bind fun value =>
            (shifts_lift (.ok value)).checked).congr fun _ => iff_of_eq (and_true _)
        rw [reduceWithin_of_isOrdinary ordinary]
        refine Shifts.checked (((shifts_lift _).bind fun _ => operands.bind fun values =>
          shifts_applyHead tree values).congr fun other => ?_)
        rw [true_and, and_true, Context.isFree_operands_iff named]
      · rw [reduceWithin_of_isTreeValue handedOver]
        rcases only.handOver_eq handedOver with ⟨failure, fails⟩ | ⟨run, assigns, -⟩
        · rw [fails]
          exact (shifts_fail failure).checked
        · have assignment : tree.isAssignment = true := by cases assigns <;> rfl
          cases (free tree (.here tree)).symm.trans assignment

/-! ## Assignments that have been carried out -/

/-- An assignment that comes to a value has been carried out, one level further down. -/
theorem OnlyAssigns.exists_of_assignment
    (only : registry.OnlyAssigns)
    {depth limit : Nat}
    {caches : Caches}
    {operator : String}
    {right : Expr}
    {final : Evaluation}
    {value : Number}
    (ran : registry.reduceWithin kind depth (.binary .tree operator (.variable name) right) limit
      ⟨⟨.never, caches⟩, context, []⟩ = (.ok value, final)) :
    ∃ run less, depth = less + 1 ∧ Assigns (.binary .tree operator (.variable name) right) run ∧
      run ⟨kind, registry.reduceWithin kind less⟩ limit ⟨⟨.never, caches⟩, context, []⟩ =
        (.ok value, final) := by
  cases depth with
  | zero => cases ran
  | succ depth =>
      have handedOver :
          (Expr.binary .tree operator (.variable name) right).isTreeValue = true := rfl
      rw [reduceWithin_of_isTreeValue handedOver] at ran
      obtain ⟨_, between, checked, ran⟩ := exists_of_bind_run_eq_ok ran
      obtain rfl : (⟨⟨.never, caches⟩, context, []⟩ : Evaluation) = between :=
        congrArg Prod.snd checked
      rcases only.handOver_eq handedOver with ⟨failure, fails⟩ | ⟨run, assigns, same⟩
      · rw [fails] at ran
        cases ran
      · rw [same] at ran
        exact ⟨run, depth, rfl, assigns, ran⟩

/-- An assignment binds the value at once; a definition keeps the tree. -/
theorem assigns_cases
    {operator : String}
    {right : Expr}
    {run : Reducer → Eval Number}
    (assigns : Assigns (.binary .tree operator (.variable name) right) run) :
    (operator = "=" ∧ run = fun reducer => do
        let value ← reducer.reduce right
        Eval.changeContext (·.setVariable name value)
        pure value) ∨
      (operator = ":=" ∧ run = fun reducer => do
        Eval.changeContext (·.setDefinition name right)
        reducer.reduce right) := by
  cases assigns with
  | value => exact .inl ⟨rfl, rfl⟩
  | definition => exact .inr ⟨rfl, rfl⟩

/-- An assigned variable is bound to the value of the assignment. -/
theorem OnlyAssigns.find?_of_assignment
    (only : registry.OnlyAssigns)
    {limit : Nat}
    {right : Expr}
    {result : Evaluated}
    (succeeds : (evaluate limit registry context (.binary .tree "=" (.variable name) right)
      .never).result = .ok result) :
    result.context.values.find? name = some result.value := by
  obtain ⟨kind, final, _, ran, same⟩ := evaluate_eq_ok_iff.1 succeeds
  obtain ⟨run, less, _, assigns, ran⟩ := only.exists_of_assignment ran
  rcases assigns_cases assigns with ⟨_, rfl⟩ | ⟨absurdity, _⟩
  · obtain ⟨value, between, _, ran⟩ := exists_of_bind_run_eq_ok ran
    obtain ⟨_, bound, changed, ran⟩ := exists_of_bind_run_eq_ok ran
    obtain rfl : value = result.value := Except.ok.inj (congrArg Prod.fst ran)
    obtain rfl : bound = final := congrArg Prod.snd ran
    obtain rfl :
        { between with context := between.context.setVariable name result.value } = bound :=
      congrArg Prod.snd changed
    rw [← same]
    exact (Table.find?_insert _ _ _ _).trans (if_pos rfl)
  · exact absurd absurdity (by decide)

/-- A variable that is bound comes to its value under any limit but zero. -/
theorem evaluate_of_bound
    {value : Number}
    (chosen : registry.kindOf context = .ok kind)
    (bound : context.values.find? name = some value)
    (limit : Nat) :
    (evaluate (limit + 1) registry context (.variable name) .never).result =
      .ok ⟨value, context⟩ := by
  have reduces : registry.reduceWithin kind (limit + 1) (.variable name) (limit + 1)
      ⟨⟨.never, registry.caches⟩, context, []⟩ =
        (.ok value, ⟨⟨.never, registry.caches⟩, context, []⟩) := by
    rw [reduceWithin_variable]
    exact lookUp_eq_ok_iff.2 (.inl ⟨bound, rfl⟩)
  exact evaluate_eq_ok_iff.2 ⟨kind, _, chosen, reduces, rfl⟩

/-- A definition of an expression without assignments changes nothing else, and the name comes to
the value of the expression next, unless it is bound as a variable. -/
theorem OnlyAssigns.evaluate_of_definition
    (only : registry.OnlyAssigns)
    {limit : Nat}
    {right : Expr}
    {result : Evaluated}
    (free : context.IsAssignmentFree right)
    (succeeds : (evaluate limit registry context (.binary .tree ":=" (.variable name) right)
      .never).result = .ok result) :
    result.context = context.setDefinition name right ∧
      (context.values.find? name = none →
        (evaluate limit registry result.context (.variable name) .never).result = .ok result) := by
  obtain ⟨kind, final, chosen, ran, same⟩ := evaluate_eq_ok_iff.1 succeeds
  obtain ⟨run, less, rfl, assigns, ran⟩ := only.exists_of_assignment ran
  rcases assigns_cases assigns with ⟨absurdity, _⟩ | ⟨_, rfl⟩
  · exact absurd absurdity (by decide)
  · obtain ⟨_, defining, changed, ran⟩ := exists_of_bind_run_eq_ok ran
    obtain rfl : (⟨⟨.never, registry.caches⟩, context.setDefinition name right, []⟩ : Evaluation) =
        defining := congrArg Prod.snd changed
    obtain ⟨isFree, after, rfl, again⟩ :=
      only.shifts_reduceWithin less (free.setDefinition name) _ _ _ _ ran
    have becomes : result.context = context.setDefinition name right := same.symm
    refine ⟨becomes, fun unbound => ?_⟩
    have defined : (context.setDefinition name right).definitions.find? name = some right :=
      (Table.find?_insert _ _ _ _).trans (if_pos rfl)
    have expands := again [name] (isFree.while_expanding defined)
    have reduces : registry.reduceWithin kind (less + 1) (.variable name) (less + 1)
        ⟨⟨.never, registry.caches⟩, context.setDefinition name right, []⟩ =
          (.ok result.value, ⟨after, context.setDefinition name right, []⟩) := by
      rw [reduceWithin_variable]
      exact lookUp_eq_ok_iff.2
        (.inr ⟨right, _, unbound, defined, List.not_mem_nil, expands, rfl⟩)
    rw [becomes]
    exact evaluate_eq_ok_iff.2 ⟨kind, _, chosen, reduces, becomes.symm⟩

end Registry
end Reckoner
