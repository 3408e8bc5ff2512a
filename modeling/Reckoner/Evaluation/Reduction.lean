import Reckoner.Evaluation.Registry

/-!
# Reduction

An expression is reduced to a number from the leaves up.  Operators and functions of values receive
their operands reduced and in one representation; those of unreduced expressions receive the
operands themselves.  Whether the evaluation has been cancelled is checked before every node and
after every operand.
-/

namespace Reckoner
namespace Registry

/-- Apply a function to numbers, after they have been brought to one representation. -/
def applyToNumbers
    (registry : Registry)
    (kind : NumberKind)
    (name : String)
    (function : NumberFunction)
    (numbers : List Number) :
    Eval Number := do
  let arguments ← registry.promotions.promote numbers
  if function.admits arguments then
    Eval.calculateIn (fun context => function.apply (registry.libraryIn kind context) arguments)
  else Run.fail (.badArguments name)

/-- Apply a function to unreduced expressions. -/
def applyToTrees
    (reducer : Reducer)
    (name : String)
    (function : TreeFunction)
    (trees : List Expr) :
    Eval Number :=
  if function.admits trees then function.apply reducer trees
  else Run.fail (.badArguments name)

/-- The value of a name: that of the variable, or else that of the definition, which must not be in
the middle of its own expansion. -/
def lookUp (reduce : Expr → Eval Number) (name : String) : Eval Number := do
  let evaluation ← Run.state
  match evaluation.context.values.find? name with
  | some value => pure value
  | none =>
      match evaluation.context.definitions.find? name with
      | none => Run.fail (.undefinedVariable name)
      | some tree =>
          if evaluation.expanding.contains name then Run.fail (.recursiveDefinition name)
          else do
            Run.change (fun before => { before with expanding := name :: before.expanding })
            Run.thenChange (reduce tree)
              (fun after => { after with expanding := after.expanding.tail })

/-- The value of an operand, after which the evaluation may stop. -/
def reduceOperand (reduce : Expr → Eval Number) (operand : Expr) : Eval Number := do
  let value ← reduce operand
  Eval.check
  pure value

/-- Reduce an expression, at most to a depth. -/
def reduceWithin (registry : Registry) (kind : NumberKind) : (depth : Nat) → Expr → Eval Number
  | 0, _ => Run.goOn
  | depth + 1, node => do
      let reduce := reduceWithin registry kind depth
      Eval.check
      match node with
      | .number text => Number.parse kind text
      | .variable name => lookUp reduce name
      | .binary .value operator left right =>
          let first ← reduceOperand reduce left
          let second ← reduceOperand reduce right
          match registry.operators.find? operator with
          | none => Run.fail (.unknownOperator operator)
          | some found => registry.applyToNumbers kind operator found.function [first, second]
      | .unary .value operator _ operand =>
          let value ← reduceOperand reduce operand
          match registry.operators.find? operator with
          | none => Run.fail (.unknownOperator operator)
          | some found => registry.applyToNumbers kind operator found.function [value]
      | .call .value name arguments =>
          -- an unknown function is noticed before its arguments are reduced, an operator after
          match registry.functions.find? name with
          | none => Run.fail (.unknownFunction name)
          | some function =>
              let values ← arguments.mapM (reduceOperand reduce)
              registry.applyToNumbers kind name function values
      | .binary .tree operator left right =>
          match registry.treeOperators.find? operator with
          | none => Run.fail (.unknownOperator operator)
          | some found => applyToTrees ⟨kind, reduce⟩ operator found.function [left, right]
      | .unary .tree operator _ operand =>
          match registry.treeOperators.find? operator with
          | none => Run.fail (.unknownOperator operator)
          | some found => applyToTrees ⟨kind, reduce⟩ operator found.function [operand]
      | .call .tree name arguments =>
          match registry.treeFunctions.find? name with
          | none => Run.fail (.unknownFunction name)
          | some function => applyToTrees ⟨kind, reduce⟩ name function arguments

/-- Reduce an expression. -/
def reduce (registry : Registry) (kind : NumberKind) (tree : Expr) : Eval Number :=
  Run.withLimit (fun limit => registry.reduceWithin kind limit tree)

/-- The representation in which a context reads literals. -/
def kindOf (registry : Registry) (context : Context) : Except Failure NumberKind :=
  match context.implementation with
  | none => .error .noNumberImplementation
  | some name => (registry.implementation name).map NumberImplementation.kind

end Registry

/-- The number that an expression reduces to, and the bindings afterwards. -/
structure Evaluated where
  value : Number
  context : Context
  deriving DecidableEq

/-- How an evaluation ends: its result, and the machine as it is left behind. -/
structure Ending where
  result : Except Stop Evaluated
  machine : Machine

/-- Evaluate an expression against a copy of a context. -/
def evaluate
    (limit : Nat)
    (registry : Registry)
    (context : Context)
    (tree : Expr)
    (cancellation : Cancellation) :
    Ending :=
  let machine : Machine := ⟨cancellation, registry.caches⟩
  match registry.kindOf context with
  | .error failure => ⟨.error (.failed failure), machine⟩
  | .ok kind =>
      match registry.reduce kind tree limit ⟨machine, context, []⟩ with
      | (.ok value, after) => ⟨.ok ⟨value, after.context⟩, after.machine⟩
      | (.error stop, after) => ⟨.error stop, after.machine⟩

end Reckoner
