import Reckoner.Failure

/-!
# Computations that may fail or not end

A run works on a state and either gives a value or stops.  It stops with a failure, or without a
result because it would go on beyond a limit.  The limit bounds the rounds of every loop and the
depth of every recursion on its own; a result that is reached at all is reached under every limit
that is large enough, and the limit has no influence on it.
-/

namespace Reckoner

/-- Why a run gives no value. -/
inductive Stop
  | failed (failure : Failure)
  | unfinished
  deriving DecidableEq, Repr

/-- A computation on a state, bounded by a limit. -/
def Run (σ α : Type) : Type :=
  (limit : Nat) → σ → Except Stop α × σ

namespace Run

variable {σ τ α β : Type}

/-- Give a value. -/
@[always_inline, inline] protected def pure (value : α) : Run σ α :=
  fun _ state => (.ok value, state)

/-- Go on with the value of a run; a stopped run stays stopped and keeps its state. -/
@[always_inline, inline] protected def bind (run : Run σ α) (next : α → Run σ β) : Run σ β :=
  fun limit state =>
    match run limit state with
    | (.ok value, after) => next value limit after
    | (.error stop, after) => (.error stop, after)

@[always_inline] instance : Monad (Run σ) where
  pure := Run.pure
  bind := Run.bind

theorem pure_eq (value : α) : (pure value : Run σ α) = fun _ state => (.ok value, state) := rfl

theorem bind_eq (run : Run σ α) (next : α → Run σ β) :
    (run >>= next) = fun limit state =>
      match run limit state with
      | (.ok value, after) => next value limit after
      | (.error stop, after) => (.error stop, after) := rfl

/-- Stop with a failure. -/
@[inline] def fail (failure : Failure) : Run σ α :=
  fun _ state => (.error (.failed failure), state)

/-- Stop without a result. -/
@[inline] def goOn : Run σ α :=
  fun _ state => (.error .unfinished, state)

/-- The value of a result, or its failure. -/
@[inline] def ofResult : Except Failure α → Run σ α
  | .ok value => Run.pure value
  | .error failure => fail failure

@[always_inline] instance : MonadLift (Except Failure) (Run σ) where
  monadLift := ofResult

/-- The state. -/
@[inline] def state : Run σ σ :=
  fun _ state => (.ok state, state)

/-- Change the state. -/
@[inline] def change (update : σ → σ) : Run σ Unit :=
  fun _ state => (.ok (), update state)

/-- The outcome of a run as a value: a failure does not stop what follows. -/
@[inline] def attempt (run : Run σ α) : Run σ (Except Failure α) :=
  fun limit state =>
    match run limit state with
    | (.ok value, after) => (.ok (.ok value), after)
    | (.error (.failed failure), after) => (.ok (.error failure), after)
    | (.error .unfinished, after) => (.error .unfinished, after)

/-- Change the state after a run, whether it gives a value or not. -/
@[inline] def thenChange (run : Run σ α) (update : σ → σ) : Run σ α :=
  fun limit state =>
    match run limit state with
    | (outcome, after) => (outcome, update after)

/-- A run that is told its own limit. -/
@[inline] def withLimit (run : Nat → Run σ α) : Run σ α :=
  fun limit state => run limit limit state

/-- A run on a part of the state. -/
@[inline] def within (part : τ → σ) (replace : σ → τ → τ) (run : Run σ α) : Run τ α :=
  fun limit state =>
    match run limit (part state) with
    | (outcome, after) => (outcome, replace after state)

/-- Repeat a step until it gives a result, at most a number of times. -/
def repeatAtMost (step : β → Run σ (β ⊕ α)) :
    (rounds : Nat) → β → (limit : Nat) → σ → Except Stop α × σ
  | 0, _, _, state => (.error .unfinished, state)
  | rounds + 1, current, limit, state =>
      match step current limit state with
      | (.ok (.inl next), after) => repeatAtMost step rounds next limit after
      | (.ok (.inr result), after) => (.ok result, after)
      | (.error stop, after) => (.error stop, after)

/-- Repeat a step until it gives a result. -/
def repeatUntil (step : β → Run σ (β ⊕ α)) (start : β) : Run σ α :=
  fun limit state => repeatAtMost step limit start limit state

end Run
end Reckoner
