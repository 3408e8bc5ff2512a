/-!
# Cancellation

A running evaluation asks from time to time whether it is to stop.  A cancellation says how many
more times it is told to go on; from then on it is told to stop for good.
-/

namespace Reckoner

/-- How many checks still pass; `none` when all of them do. -/
structure Cancellation where
  remaining : Option Nat
  deriving DecidableEq, Repr

namespace Cancellation

/-- No check ever fails. -/
def never : Cancellation := ⟨none⟩

/-- Every check fails. -/
def now : Cancellation := ⟨some 0⟩

/-- The given number of checks pass. -/
def after (checks : Nat) : Cancellation := ⟨some checks⟩

/-- Whether the next check fails. -/
def isCancelled (cancellation : Cancellation) : Bool :=
  cancellation.remaining == some 0

/-- What is left after a check. -/
def next : Cancellation → Cancellation
  | ⟨none⟩ => ⟨none⟩
  | ⟨some checks⟩ => ⟨some (checks - 1)⟩

end Cancellation
end Reckoner
