import Reckoner.Proofs.Evaluation.Layers
import Reckoner.Standard.Implementations
import Reckoner.Standard.Operators

/-!
# Registries whose functions of unreduced expressions are the assignments

`x = e` and `x := e` do nothing with their right side but reduce it, and change nothing but a
binding.  Where no other function of unreduced expressions is registered, every node of this sort
is one of the two or fails at once.
-/

namespace Reckoner
namespace Registry

open Standard

/-- The only functions of unreduced expressions that are registered are the two assignments. -/
structure OnlyAssigns (registry : Registry) : Prop where
  operators : ∀ name found, registry.treeOperators.find? name = some found →
    (name = "=" ∧ found.function = assign) ∨ (name = ":=" ∧ found.function = define)
  functions : ∀ name, registry.treeFunctions.find? name = none

/-- What is reduced of an assignment, and the change of the bindings that goes with it. -/
inductive Assigns : Expr → (Reducer → Eval Number) → Prop
  | value (name : String) (tree : Expr) :
      Assigns (.binary .tree "=" (.variable name) tree) fun reducer => do
        let value ← reducer.reduce tree
        Eval.changeContext (·.setVariable name value)
        pure value
  | definition (name : String) (tree : Expr) :
      Assigns (.binary .tree ":=" (.variable name) tree) fun reducer => do
        Eval.changeContext (·.setDefinition name tree)
        reducer.reduce tree

variable {registry : Registry}

theorem OnlyAssigns.admits_eq
    (only : registry.OnlyAssigns)
    {name : String}
    {found : Operator TreeFunction}
    (registered : registry.treeOperators.find? name = some found) :
    found.function.admits = isAssignment := by
  rcases only.operators name found registered with ⟨_, same⟩ | ⟨_, same⟩ <;> rw [same] <;> rfl

/-- A node of unreduced expressions is an assignment or fails at once. -/
theorem OnlyAssigns.handOver_eq
    (only : registry.OnlyAssigns)
    {tree : Expr}
    (handedOver : tree.isTreeValue = true) :
    (∃ failure, ∀ reducer, registry.handOver reducer tree = Run.fail failure) ∨
      ∃ run, Assigns tree run ∧ ∀ reducer, registry.handOver reducer tree = run reducer := by
  match tree, handedOver with
  | .binary .tree operator left right, _ =>
      simp only [handOver]
      cases found : registry.treeOperators.find? operator with
      | none => exact .inl ⟨_, fun _ => rfl⟩
      | some entry =>
          simp only [applyToTrees, only.admits_eq found]
          cases left with
          | «variable» name =>
              rcases only.operators operator entry found with ⟨rfl, same⟩ | ⟨rfl, same⟩
              · exact .inr ⟨_, .value name right, fun reducer => by rw [same]; rfl⟩
              · exact .inr ⟨_, .definition name right, fun reducer => by rw [same]; rfl⟩
          | number _ | binary _ _ _ _ | unary _ _ _ _ | call _ _ _ =>
              exact .inl ⟨.badArguments operator, fun _ => rfl⟩
  | .unary .tree operator fixity operand, _ =>
      simp only [handOver]
      cases found : registry.treeOperators.find? operator with
      | none => exact .inl ⟨_, fun _ => rfl⟩
      | some entry =>
          simp only [applyToTrees, only.admits_eq found]
          exact .inl ⟨.badArguments operator, fun reducer => by cases operand <;> rfl⟩
  | .call .tree name arguments, _ =>
      simp only [handOver, only.functions name]
      exact .inl ⟨_, fun _ => rfl⟩

/-- Functions of numbers do not matter. -/
theorem OnlyAssigns.registerFunction
    (only : registry.OnlyAssigns)
    (name : String)
    (function : NumberFunction) :
    (registry.registerFunction name function).OnlyAssigns :=
  ⟨only.operators, only.functions⟩

end Registry

namespace Standard

/-- The standard operators on unreduced expressions only assign. -/
theorem onlyAssigns_of_treeOperators
    {registry : Registry}
    (operators : registry.treeOperators =
      (Table.empty.insert "=" ⟨.binary .right (-1), assign⟩).insert ":="
        ⟨.binary .right (-1), define⟩)
    (functions : ∀ name, registry.treeFunctions.find? name = none) :
    registry.OnlyAssigns where
  operators := by
    intro name found registered
    rw [operators, Table.find?_insert, Table.find?_insert] at registered
    split at registered
    next same => exact .inr ⟨same, by cases registered; rfl⟩
    next =>
      split at registered
      next same => exact .inl ⟨same, by cases registered; rfl⟩
      next => cases registered
  functions := functions

/-- The sum of two numbers. -/
def plus : NumberFunction :=
  binaryOperator "+" anyNumbers (fun first second => first.add second)

/-- A small registry: precise numbers, their sums, and the assignments. -/
def sums : Registry :=
  let numbers := Registry.empty.registerImplementation preciseName precise
  let withAssignments := treeOperators.foldl
    (fun result (name, spec, function) => result.registerTreeOperator name spec function) numbers
  (withAssignments.registerOperator "+" (.binary .left 0) plus).rebuildPromotions .byName

theorem onlyAssigns_sums : sums.OnlyAssigns :=
  onlyAssigns_of_treeOperators rfl fun _ => rfl

theorem contains_sums
    {ofNumbers : NumberFunction → Prop}
    (holds : ofNumbers plus) :
    sums.Contains ofNumbers fun _ => True where
  operators := by
    have named : ofNumbers (Operator.mk (.binary .left 0) plus).function := holds
    exact (Table.all_empty _).insert "+" named
  treeOperators := fun _ _ => trivial
  functions := Table.all_empty _
  treeFunctions := fun _ _ => trivial

end Standard
end Reckoner
