import Reckoner.Proofs.Evaluation.Completion

/-!
# Runs that answer

A calculation answers if without cancellation and under every limit that is large enough it gives
a value or a failure.  A loop whose steps lead from bad states to bad states only never ends,
whatever the limit is.
-/

namespace Reckoner
namespace Run

variable {α β : Type} {sound : Caches → Prop} {good : α → Prop}

/-- Without cancellation and under every limit that is large enough a calculation gives a value or a
failure, from all sound caches. -/
def Answers (sound : Caches → Prop) (run : Calc α) : Prop :=
  ∃ bound, ∀ limit ≥ bound, ∀ caches, sound caches → IsAnswer (run limit ⟨.never, caches⟩).1

/-- Without cancellation a calculation gives neither a value nor a failure, whatever the limit
is. -/
def Unending (run : Calc α) : Prop :=
  ∀ limit caches, run limit ⟨.never, caches⟩ = (.error .unfinished, ⟨.never, caches⟩)

theorem answers_fail {failure : Failure} (proper : failure ≠ .cancelled) :
    Answers sound (fail failure : Calc α) :=
  ⟨0, fun _ _ _ _ => ⟨by simp [fail], fun same => proper (Stop.failed.inj (Except.error.inj same))⟩⟩

theorem answers_pure (value : α) : Answers sound (pure value : Calc α) :=
  ⟨0, fun _ _ _ _ => isAnswer_ok value⟩

theorem Completes.answers {run : Calc α} (completes : Completes sound run good) :
    Answers sound run := by
  obtain ⟨value, -, bound, runs⟩ := completes
  refine ⟨bound, fun limit above caches held => ?_⟩
  obtain ⟨after, -, same⟩ := runs limit above caches held
  rw [same]
  exact isAnswer_ok value

theorem Answers.mono
    {other : Caches → Prop}
    {run : Calc α}
    (answers : Answers sound run)
    (weaker : ∀ caches, other caches → sound caches) :
    Answers other run :=
  answers.imp fun _ ends limit above caches held => ends limit above caches (weaker caches held)

/-- What follows a calculation that completes decides whether both end. -/
theorem Completes.answers_bind
    {run : Calc α}
    {next : α → Calc β}
    (first : Completes sound run good)
    (second : ∀ value, good value → Answers sound (next value)) :
    Answers sound (run >>= next) := by
  obtain ⟨value, holds, firstBound, runs⟩ := first
  obtain ⟨secondBound, ends⟩ := second value holds
  refine ⟨max firstBound secondBound, fun limit above caches held => ?_⟩
  obtain ⟨between, heldBetween, same⟩ := runs limit (by omega) caches held
  rw [bind_of_ok same]
  exact ends limit (by omega) between heldBetween

namespace Unending

theorem not_answers {run : Calc α} (unending : Unending run) (some : ∃ caches, sound caches) :
    ¬Answers sound run := by
  rintro ⟨bound, ends⟩
  obtain ⟨caches, held⟩ := some
  have answers := ends bound le_rfl caches held
  rw [unending] at answers
  exact answers.1 rfl

theorem check_bind {run : Calc α} (limit : Nat) (caches : Caches) :
    (Calc.check >>= fun _ => run) limit ⟨.never, caches⟩ = run limit ⟨.never, caches⟩ :=
  bind_of_ok (Calc.check_eq limit ⟨.never, caches⟩) _

theorem bind {run : Calc α} (unending : Unending run) (next : α → Calc β) :
    Unending (run >>= next) :=
  fun limit caches => bind_of_error (unending limit caches) next

/-- A loop does not end if its steps never leave the bad states. -/
theorem repeatUntil
    {step : β → Calc (β ⊕ α)}
    (bad : β → Prop)
    (steps : ∀ current, bad current → ∃ next, bad next ∧
      ∀ limit caches, step current limit ⟨.never, caches⟩ = (.ok (.inl next), ⟨.never, caches⟩))
    {start : β}
    (atStart : bad start) :
    Unending (repeatUntil step start) := by
  intro limit caches
  have rounds (count : Nat) (current : β) (badly : bad current) :
      repeatAtMost step count current limit ⟨.never, caches⟩ =
        (.error .unfinished, ⟨.never, caches⟩) := by
    induction count generalizing current with
    | zero => rfl
    | succ count hypothesis =>
        obtain ⟨next, badNext, steps⟩ := steps current badly
        rw [repeatAtMost, steps]
        exact hypothesis next badNext
  exact rounds limit start atStart

end Unending
end Run
end Reckoner
