import Reckoner.Evaluation.Cancellation
import Reckoner.Evaluation.Caches
import Reckoner.Evaluation.Context
import Reckoner.Evaluation.Run

/-!
# Calculations

The computations of number functions: they may ask whether to stop, they may use the caches, and
they may look at the bindings.
-/

namespace Reckoner

/-- What a calculation works on. -/
structure Machine where
  cancellation : Cancellation
  caches : Caches
  deriving DecidableEq

/-- A computation of numbers. -/
abbrev Calc (α : Type) := Run Machine α

namespace Calc

instance : MonadStateOf Caches (Run Machine) where
  get := fun _ machine => (.ok machine.caches, machine)
  set := fun caches _ machine => (.ok (), { machine with caches })
  modifyGet := fun update _ machine =>
    match update machine.caches with
    | (value, caches) => (.ok value, { machine with caches })

/-- Ask whether to stop, and give the answer as a value. -/
def poll : Calc (Except Failure Unit) :=
  fun _ machine =>
    (.ok (if machine.cancellation.isCancelled then .error .cancelled else .ok ()),
      { machine with cancellation := machine.cancellation.next })

/-- Stop if the evaluation has been cancelled. -/
def check : Calc Unit := do
  let answer ← poll
  answer

/-- Cancel the evaluation. -/
def cancel : Calc Unit :=
  Run.change (fun machine => { machine with cancellation := .now })

/-- Wait until the evaluation is cancelled, and fail then. -/
def awaitCancellation {α : Type} : Calc α :=
  fun _ machine =>
    if machine.cancellation.isCancelled then (.error (.failed .cancelled), machine)
    else (.error .unfinished, machine)

/-- The factorial of a number, asking before each new table entry whether to stop. -/
def factorial (kind : NumberKind) (number : Nat) : Calc Number := do
  let result ← Caches.factorial kind number poll
  result

end Calc

/-- What a number function may use: the representation in which literals are read, pi, and the
bindings, which it cannot change. -/
structure Library where
  kind : NumberKind
  pi : NumberKind → Calc Number
  context : Context

/-- A function of numbers that are all in one representation. -/
structure NumberFunction where
  admits : List Number → Bool
  apply : Library → List Number → Calc Number

namespace NumberFunction

/-- A function of one number. -/
def unary
    (name : String)
    (admits : Number → Bool)
    (apply : Library → Number → Calc Number) :
    NumberFunction where
  admits
    | [argument] => admits argument
    | _ => false
  apply library
    | [argument] => apply library argument
    | _ => Run.fail (.badArguments name)

/-- A function of two numbers. -/
def binary
    (name : String)
    (admits : Number → Number → Bool)
    (apply : Library → Number → Number → Calc Number) :
    NumberFunction where
  admits
    | [first, second] => admits first second
    | _ => false
  apply library
    | [first, second] => apply library first second
    | _ => Run.fail (.badArguments name)

end NumberFunction

end Reckoner
