import Reckoner.Evaluation.Reduction
import Reckoner.Proofs.Evaluation.Laws

/-!
# Layers of a reduction

What a reduction does with an expression depends on its kind alone: a literal is read, a name is
looked up, the operands of an operator or call node of values are reduced one after the other before
its function is applied to their values, and the operands of a node of unreduced expressions are
handed over.  The nodes of one kind are treated alike, whatever the number of their operands.
-/

namespace Reckoner

/-- The operands of an expression. -/
def Expr.operands : Expr → List Expr
  | .number _ | .variable _ => []
  | .binary _ _ left right => [left, right]
  | .unary _ _ _ operand => [operand]
  | .call _ _ arguments => arguments

/-- Whether an expression is an operator or call node of values. -/
def Expr.isOrdinary : Expr → Bool
  | .binary mode _ _ _ => mode == .value
  | .unary mode _ _ _ => mode == .value
  | .call mode _ _ => mode == .value
  | _ => false

/-- The kinds of expressions that a reduction tells apart. -/
theorem Expr.layers (tree : Expr) :
    (∃ text, tree = .number text) ∨ (∃ name, tree = .variable name) ∨ tree.isOrdinary = true ∨
      tree.isTreeValue = true := by
  match tree with
  | .number text => exact .inl ⟨text, rfl⟩
  | .variable name => exact .inr (.inl ⟨name, rfl⟩)
  | .binary .value _ _ _ | .unary .value _ _ _ | .call .value _ _ => exact .inr (.inr (.inl rfl))
  | .binary .tree _ _ _ | .unary .tree _ _ _ | .call .tree _ _ => exact .inr (.inr (.inr rfl))

/-- An operand is smaller than what it is an operand of. -/
theorem Expr.sizeOf_operand_lt
    {tree operand : Expr}
    (member : operand ∈ tree.operands) :
    sizeOf operand < sizeOf tree := by
  cases tree with
  | number _ | «variable» _ => cases member
  | binary mode operator left right =>
      simp only [operands, List.mem_cons, List.not_mem_nil, or_false] at member
      rcases member with rfl | rfl <;> grind [Expr.binary.sizeOf_spec]
  | unary mode operator fixity inner =>
      simp only [operands, List.mem_cons, List.not_mem_nil, or_false] at member
      subst member
      simp
  | call mode name arguments =>
      have smaller := List.sizeOf_lt_of_mem (show operand ∈ arguments from member)
      simp
      omega

namespace Registry

/-- Whatever is registered has a property, one for functions of numbers and one for those of
unreduced expressions. -/
structure Contains
    (registry : Registry)
    (ofNumbers : NumberFunction → Prop)
    (ofTrees : TreeFunction → Prop) : Prop where
  operators : registry.operators.All (fun operator => ofNumbers operator.function)
  treeOperators : registry.treeOperators.All (fun operator => ofTrees operator.function)
  functions : registry.functions.All ofNumbers
  treeFunctions : registry.treeFunctions.All ofTrees

variable {registry : Registry} {kind : NumberKind}

theorem Contains.withCaches
    {ofNumbers : NumberFunction → Prop}
    {ofTrees : TreeFunction → Prop}
    (contains : registry.Contains ofNumbers ofTrees)
    (caches : Caches) :
    ({ registry with caches } : Registry).Contains ofNumbers ofTrees :=
  ⟨contains.operators, contains.treeOperators, contains.functions, contains.treeFunctions⟩

/-- The function of a call has to be known before the arguments are reduced; an operator is
looked up only after its operands. -/
def expect (registry : Registry) : Expr → Except Failure Unit
  | .call .value name _ =>
      match registry.functions.find? name with
      | none => .error (.unknownFunction name)
      | some _ => .ok ()
  | _ => .ok ()

/-- Apply what stands at the head of an operator or call node of values to the values of its
operands. -/
def applyHead (registry : Registry) (kind : NumberKind) : Expr → List Number → Eval Number
  | .binary .value operator _ _, values
  | .unary .value operator _ _, values =>
      match registry.operators.find? operator with
      | none => Run.fail (.unknownOperator operator)
      | some found => registry.applyToNumbers kind operator found.function values
  | .call .value name _, values =>
      match registry.functions.find? name with
      | none => Run.fail (.unknownFunction name)
      | some function => registry.applyToNumbers kind name function values
  | _, _ => Run.goOn

/-- Hand the operands of a node of unreduced expressions over. -/
def handOver (registry : Registry) (reducer : Reducer) : Expr → Eval Number
  | .binary .tree operator left right =>
      match registry.treeOperators.find? operator with
      | none => Run.fail (.unknownOperator operator)
      | some found => applyToTrees reducer operator found.function [left, right]
  | .unary .tree operator _ operand =>
      match registry.treeOperators.find? operator with
      | none => Run.fail (.unknownOperator operator)
      | some found => applyToTrees reducer operator found.function [operand]
  | .call .tree name arguments =>
      match registry.treeFunctions.find? name with
      | none => Run.fail (.unknownFunction name)
      | some function => applyToTrees reducer name function arguments
  | _ => Run.goOn

theorem reduceWithin_number (depth : Nat) (text : String) :
    registry.reduceWithin kind (depth + 1) (.number text) = (do
      Eval.check
      Number.parse kind text) := rfl

theorem reduceWithin_variable (depth : Nat) (name : String) :
    registry.reduceWithin kind (depth + 1) (.variable name) = (do
      Eval.check
      lookUp (registry.reduceWithin kind depth) name) := rfl

/-- A walk over one operand. -/
theorem mapM_one
    {α β γ : Type}
    (function : α → Eval β)
    (only : α)
    (next : List β → Eval γ) :
    ([only].mapM function >>= next) = (function only >>= fun value => next [value]) := by
  simp

/-- A walk over two operands, the first one first. -/
theorem mapM_two
    {α β γ : Type}
    (function : α → Eval β)
    (first second : α)
    (next : List β → Eval γ) :
    ([first, second].mapM function >>= next) =
      (function first >>= fun value => function second >>= fun other => next [value, other]) := by
  simp

/-- The operands of an operator or call node of values are reduced from the first to the last. -/
theorem reduceWithin_of_isOrdinary
    {tree : Expr}
    (ordinary : tree.isOrdinary = true)
    (depth : Nat) :
    registry.reduceWithin kind (depth + 1) tree = (do
      Eval.check
      registry.expect tree
      let values ← tree.operands.mapM (reduceOperand (registry.reduceWithin kind depth))
      registry.applyHead kind tree values) := by
  refine congrArg (Eval.check >>= ·) (funext fun _ => ?_)
  let reduce := reduceOperand (registry.reduceWithin kind depth)
  match tree, ordinary with
  | .binary .value operator left right, _ =>
      exact (mapM_two reduce left right
        (registry.applyHead kind (.binary .value operator left right))).symm
  | .unary .value operator fixity operand, _ =>
      exact (mapM_one reduce operand
        (registry.applyHead kind (.unary .value operator fixity operand))).symm
  | .call .value name arguments, _ =>
      simp only [expect, applyHead, Expr.operands]
      cases registry.functions.find? name with
      | none => rfl
      | some function => rfl

/-- What stands at the head of a node is a registered function of numbers, or there is nothing to
apply, whatever the values of the operands. -/
theorem Contains.applyHead_cases
    {ofNumbers : NumberFunction → Prop}
    {ofTrees : TreeFunction → Prop}
    (contains : registry.Contains ofNumbers ofTrees)
    (kind : NumberKind)
    (tree : Expr) :
    (∃ name function, ofNumbers function ∧ ∀ values,
      registry.applyHead kind tree values = registry.applyToNumbers kind name function values) ∨
    (∃ failure, failure.category = .reduction ∧ ∀ values,
      registry.applyHead kind tree values = Run.fail failure) ∨
    ∀ values, registry.applyHead kind tree values = Run.goOn := by
  match tree with
  | .binary .value operator _ _ | .unary .value operator _ _ =>
      simp only [applyHead]
      cases found : registry.operators.find? operator with
      | none => exact .inr (.inl ⟨_, rfl, fun _ => rfl⟩)
      | some entry => exact .inl ⟨_, _, contains.operators.of_find? found, fun _ => rfl⟩
  | .call .value name _ =>
      simp only [applyHead]
      cases found : registry.functions.find? name with
      | none => exact .inr (.inl ⟨_, rfl, fun _ => rfl⟩)
      | some function => exact .inl ⟨_, _, contains.functions.of_find? found, fun _ => rfl⟩
  | .number _ | .variable _ | .binary .tree _ _ _ | .unary .tree _ _ _ | .call .tree _ _ =>
      exact .inr (.inr fun _ => rfl)

/-- The head of a tree is a function of numbers or a failure, and other trees have none. -/
theorem applyHead_cases (registry : Registry) (kind : NumberKind) (tree : Expr) :
    (∃ name function, ∀ values,
      registry.applyHead kind tree values = registry.applyToNumbers kind name function values) ∨
    (∃ failure, ∀ values, registry.applyHead kind tree values = Run.fail failure) ∨
    ∀ values, registry.applyHead kind tree values = Run.goOn := by
  have contains : registry.Contains (fun _ => True) fun _ => True :=
    ⟨fun _ _ => trivial, fun _ _ => trivial, fun _ _ => trivial, fun _ _ => trivial⟩
  rcases contains.applyHead_cases kind tree
    with ⟨name, function, _, same⟩ | ⟨failure, _, same⟩ | same
  · exact .inl ⟨name, function, same⟩
  · exact .inr (.inl ⟨failure, same⟩)
  · exact .inr (.inr same)

/-- The operands of a node are handed over to a registered function of unreduced expressions, or
there is none, whoever reduces them. -/
theorem Contains.handOver_cases
    {ofNumbers : NumberFunction → Prop}
    {ofTrees : TreeFunction → Prop}
    (contains : registry.Contains ofNumbers ofTrees)
    (tree : Expr) :
    (∃ name function, ofTrees function ∧ ∀ reducer,
      registry.handOver reducer tree = applyToTrees reducer name function tree.operands) ∨
    (∃ failure, failure.category = .reduction ∧ ∀ reducer,
      registry.handOver reducer tree = Run.fail failure) ∨
    ∀ reducer, registry.handOver reducer tree = Run.goOn := by
  match tree with
  | .binary .tree operator _ _ | .unary .tree operator _ _ =>
      simp only [handOver]
      cases found : registry.treeOperators.find? operator with
      | none => exact .inr (.inl ⟨_, rfl, fun _ => rfl⟩)
      | some entry => exact .inl ⟨_, _, contains.treeOperators.of_find? found, fun _ => rfl⟩
  | .call .tree name _ =>
      simp only [handOver]
      cases found : registry.treeFunctions.find? name with
      | none => exact .inr (.inl ⟨_, rfl, fun _ => rfl⟩)
      | some function => exact .inl ⟨_, _, contains.treeFunctions.of_find? found, fun _ => rfl⟩
  | .number _ | .variable _ | .binary .value _ _ _ | .unary .value _ _ _ | .call .value _ _ =>
      exact .inr (.inr fun _ => rfl)

/-- Heads that are not known fail as reductions. -/
theorem category_of_expect
    {tree : Expr}
    {failure : Failure}
    (fails : registry.expect tree = .error failure) :
    failure.category = .reduction := by
  unfold expect at fails
  split at fails
  · split at fails
    · obtain rfl := Except.error.inj fails
      rfl
    · cases fails
  · cases fails

/-- The trees that operators take unevaluated are handed over. -/
theorem reduceWithin_of_isTreeValue
    {tree : Expr}
    (handedOver : tree.isTreeValue = true)
    (depth : Nat) :
    registry.reduceWithin kind (depth + 1) tree = (do
      Eval.check
      registry.handOver ⟨kind, registry.reduceWithin kind depth⟩ tree) := by
  match tree, handedOver with
  | .binary .tree operator left right, _ => rfl
  | .unary .tree operator fixity operand, _ => rfl
  | .call .tree name arguments, _ => rfl

/-! ## Evaluations -/

theorem kindOf_withCaches (registry : Registry) (caches : Caches) (context : Context) :
    ({ registry with caches } : Registry).kindOf context = registry.kindOf context := rfl

theorem category_of_kindOf
    {context : Context}
    {failure : Failure}
    (unknown : registry.kindOf context = .error failure) :
    failure.category = .reduction := by
  unfold kindOf implementation at unknown
  split at unknown
  next =>
    obtain rfl := Except.error.inj unknown
    rfl
  next =>
    split at unknown
    next => cases unknown
    next =>
      obtain rfl := Except.error.inj unknown
      rfl

/-- The result of an evaluation is what its reduction comes to, with the bindings of the end. -/
theorem evaluate_eq_ok_iff
    {context : Context}
    {tree : Expr}
    {limit : Nat}
    {cancellation : Cancellation}
    {result : Evaluated} :
    (evaluate limit registry context tree cancellation).result = .ok result ↔
      ∃ kind final, registry.kindOf context = .ok kind ∧
        registry.reduceWithin kind limit tree limit ⟨⟨cancellation, registry.caches⟩, context, []⟩ =
          (.ok result.value, final) ∧
        final.context = result.context := by
  have reduces (kind : NumberKind) :
      registry.reduce kind tree limit ⟨⟨cancellation, registry.caches⟩, context, []⟩ =
        registry.reduceWithin kind limit tree limit
          ⟨⟨cancellation, registry.caches⟩, context, []⟩ :=
    rfl
  unfold evaluate
  constructor
  · intro succeeds
    split at succeeds
    next => cases succeeds
    next kind chosen =>
      dsimp only at succeeds
      rw [reduces] at succeeds
      rcases ran : registry.reduceWithin kind limit tree limit
          ⟨⟨cancellation, registry.caches⟩, context, []⟩ with ⟨stop | value, final⟩
      · rw [ran] at succeeds
        cases succeeds
      · rw [ran] at succeeds
        obtain rfl := Except.ok.inj succeeds
        exact ⟨kind, final, chosen, ran, rfl⟩
  · rintro ⟨kind, final, chosen, ran, same⟩
    simp only [chosen, reduces, ran, same]

end Registry
end Reckoner
