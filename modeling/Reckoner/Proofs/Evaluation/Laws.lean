import Mathlib
import Reckoner.Evaluation.Calculation

/-!
# Laws of runs

A run that is followed by another one either gives a value, with which the other one goes on, or
stops.  Runs are a lawful monad.
-/

namespace Reckoner
namespace Run

variable {σ α β : Type}

theorem bind_of_ok
    {run : Run σ α}
    {limit : Nat}
    {start after : σ}
    {value : α}
    (runs : run limit start = (.ok value, after))
    (next : α → Run σ β) :
    (run >>= next) limit start = next value limit after := by
  simp only [bind_eq, runs]

theorem bind_of_error
    {run : Run σ α}
    {limit : Nat}
    {start after : σ}
    {stop : Stop}
    (runs : run limit start = (.error stop, after))
    (next : α → Run σ β) :
    (run >>= next) limit start = (.error stop, after) := by
  simp only [bind_eq, runs]

theorem bind_pure_comp_id (run : Run σ α) : run >>= pure = run := by
  funext limit start
  rcases runs : run limit start with ⟨_ | _, _⟩
  · exact bind_of_error runs _
  · exact bind_of_ok runs _

theorem bind_bind
    {γ : Type}
    (run : Run σ α)
    (next : α → Run σ β)
    (last : β → Run σ γ) :
    run >>= next >>= last = run >>= fun value => next value >>= last := by
  funext limit start
  rcases runs : run limit start with ⟨_ | _, _⟩
  · rw [bind_of_error runs, bind_of_error (bind_of_error runs next)]
  · rw [bind_of_ok runs]
    rcases further : next _ limit _ with ⟨_ | _, _⟩
    · rw [bind_of_error further, bind_of_error ((bind_of_ok runs next).trans further)]
    · rw [bind_of_ok further, bind_of_ok ((bind_of_ok runs next).trans further)]

instance : LawfulMonad (Run σ) :=
  LawfulMonad.mk' _ (fun run => bind_pure_comp_id run) (fun _ _ => rfl) bind_bind

end Run

theorem Calc.poll_eq (limit : Nat) (machine : Machine) :
    poll limit machine =
      (.ok (if machine.cancellation.isCancelled then .error .cancelled else .ok ()),
        { machine with cancellation := machine.cancellation.next }) := rfl

/-- A check takes one answer, and stops if the answer is to stop. -/
theorem Calc.check_eq (limit : Nat) (machine : Machine) :
    check limit machine =
      (if machine.cancellation.isCancelled then .error (.failed .cancelled) else .ok (),
        { machine with cancellation := machine.cancellation.next }) := by
  cases cancelled : machine.cancellation.isCancelled <;>
    simp [check, poll, Run.bind_eq, cancelled, liftM, monadLift, MonadLift.monadLift,
      Run.ofResult, Run.fail, Run.pure]

end Reckoner
