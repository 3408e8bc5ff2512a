import Reckoner.Evaluation.Calculation
import Reckoner.Evaluation.Context

/-!
# Evaluations

An evaluation works on a context of its own, of which it may change the bindings, and knows which
definitions it is in the middle of.  Functions of unreduced expressions act on all of this;
functions of numbers only see the bindings.
-/

namespace Reckoner

/-- What an evaluation works on: the machine of its calculations, its bindings, and the definitions
that are being expanded, innermost first. -/
structure Evaluation where
  machine : Machine
  context : Context
  expanding : List String
  deriving DecidableEq

/-- A computation that may change bindings. -/
abbrev Eval (α : Type) := Run Evaluation α

namespace Eval

/-- A calculation as a part of an evaluation. -/
@[inline] def calculate {α : Type} (calculation : Calc α) : Eval α :=
  Run.within Evaluation.machine (fun machine evaluation => { evaluation with machine }) calculation

/-- A calculation that looks at the bindings, as a part of an evaluation. -/
@[inline] def calculateIn {α : Type} (calculation : Context → Calc α) : Eval α :=
  fun limit evaluation => calculate (calculation evaluation.context) limit evaluation

/-- Stop if the evaluation has been cancelled. -/
def check : Eval Unit := calculate Calc.check

/-- The current bindings. -/
def context : Eval Context := do
  return (← Run.state).context

/-- Change the bindings. -/
def changeContext (update : Context → Context) : Eval Unit :=
  Run.change (fun evaluation => { evaluation with context := update evaluation.context })

end Eval

/-- What a function of expressions may use: the representation in which literals are read, and the
reduction of expressions. -/
structure Reducer where
  kind : NumberKind
  reduce : Expr → Eval Number

/-- A function of unreduced expressions. -/
structure TreeFunction where
  admits : List Expr → Bool
  apply : Reducer → List Expr → Eval Number

end Reckoner
