import Reckoner.Proofs.Evaluation.Laws

/-!
# What runs ensure

A run that starts in a state with a property ends in a state with the property, however it ends.
The values that it gives and the failures that it stops with are limited alongside.  Where the
values do not matter, the run is said to preserve the property.
-/

namespace Reckoner
namespace Run

variable {σ τ α β : Type} {holds : σ → Prop} {given : α → Prop} {allowed : Failure → Prop}

/-! ## Values and failures -/

/-- A run keeps a property of its states, gives none but values of a sort, and stops with none
but the allowed failures. -/
def Ensures
    (holds : σ → Prop)
    (given : α → Prop)
    (allowed : Failure → Prop)
    (run : Run σ α) : Prop :=
  ∀ limit start, holds start → holds (run limit start).2 ∧
    (∀ value, (run limit start).1 = .ok value → given value) ∧
    ∀ failure, (run limit start).1 = .error (.failed failure) → allowed failure

theorem ensures_pure {value : α} (fine : given value) :
    Ensures holds given allowed (pure value : Run σ α) := by
  intro limit start held
  refine ⟨held, fun other same => ?_, by simp [Run.pure_eq]⟩
  obtain rfl : value = other := by simpa [Run.pure_eq] using same
  exact fine

theorem ensures_fail
    {failure : Failure}
    (fine : allowed failure) :
    Ensures holds given allowed (fail failure : Run σ α) := by
  intro limit start held
  refine ⟨held, by simp [fail], fun other same => ?_⟩
  obtain rfl : failure = other := by simpa [fail] using same
  exact fine

theorem ensures_goOn : Ensures holds given allowed (goOn : Run σ α) := by
  intro limit start held
  exact ⟨held, by simp [goOn], by simp [goOn]⟩

/-- A result whose value and whose failures are allowed. -/
theorem ensures_ofResult
    {result : Except Failure α}
    (fine : ∀ value, result = .ok value → given value)
    (excused : ∀ failure, result = .error failure → allowed failure) :
    Ensures holds given allowed (ofResult result : Run σ α) := by
  cases result with
  | ok value => exact ensures_pure (fine value rfl)
  | error failure => exact ensures_fail (excused failure rfl)

theorem Ensures.mono
    {weaker : α → Prop}
    {run : Run σ α}
    (ensures : Ensures holds given allowed run)
    (implies : ∀ value, given value → weaker value) :
    Ensures holds weaker allowed run := by
  intro limit start held
  obtain ⟨heldAfter, fine, excused⟩ := ensures limit start held
  exact ⟨heldAfter, fun value same => implies value (fine value same), excused⟩

theorem Ensures.excuse
    {excused : Failure → Prop}
    {run : Run σ α}
    (ensures : Ensures holds given allowed run)
    (implies : ∀ failure, allowed failure → excused failure) :
    Ensures holds given excused run := by
  intro limit start held
  obtain ⟨heldAfter, fine, within⟩ := ensures limit start held
  exact ⟨heldAfter, fine, fun failure same => implies failure (within failure same)⟩

/-- What the first run ensures is what the next one may rely on. -/
theorem Ensures.bind
    {middle : α → Prop}
    {given : β → Prop}
    {run : Run σ α}
    {next : α → Run σ β}
    (first : Ensures holds middle allowed run)
    (second : ∀ value, middle value → Ensures holds given allowed (next value)) :
    Ensures holds given allowed (run >>= next) := by
  intro limit start held
  obtain ⟨heldAfter, fine, excused⟩ := first limit start held
  rcases runs : run limit start with ⟨stop | value, after⟩
  · rw [runs] at heldAfter excused
    rw [bind_of_error runs]
    exact ⟨heldAfter, by simp, fun failure same => excused failure (by simpa using same)⟩
  · rw [runs] at heldAfter fine
    rw [bind_of_ok runs]
    exact second value (fine value rfl) limit after heldAfter

/-- What follows the state may rely on what holds of it. -/
theorem ensures_state_bind
    {next : σ → Run σ α}
    (follows : ∀ current, holds current → Ensures holds given allowed (next current)) :
    Ensures holds given allowed (state >>= next) := by
  intro limit start held
  exact follows start held limit start held

/-- A change ensures what it keeps. -/
theorem ensures_change
    {update : σ → σ}
    (keeps : ∀ current, holds current → holds (update current)) :
    Ensures holds (fun _ => True) allowed (change update) := by
  intro limit start held
  exact ⟨keeps start held, fun _ _ => trivial, by simp [change]⟩

theorem Ensures.thenChange
    {run : Run σ α}
    {update : σ → σ}
    (first : Ensures holds given allowed run)
    (keeps : ∀ current, holds current → holds (update current)) :
    Ensures holds given allowed (run.thenChange update) := by
  intro limit start held
  obtain ⟨heldAfter, fine, excused⟩ := first limit start held
  exact ⟨keeps _ heldAfter, fine, excused⟩

/-- A run on a part of the state. -/
theorem Ensures.within
    {part : τ → σ}
    {replace : σ → τ → τ}
    {run : Run σ α}
    {whole : τ → Prop}
    (inside : Ensures holds given allowed run)
    (reads : ∀ current, whole current → holds (part current))
    (keeps : ∀ value current, holds value → whole current → whole (replace value current)) :
    Ensures whole given allowed (Run.within part replace run) := by
  intro limit start held
  obtain ⟨heldAfter, fine, excused⟩ := inside limit (part start) (reads start held)
  exact ⟨keeps _ start heldAfter held, fine, excused⟩

theorem ensures_withLimit
    {run : Nat → Run σ α}
    (every : ∀ limit, Ensures holds given allowed (run limit)) :
    Ensures holds given allowed (withLimit run) := by
  intro limit start held
  exact every limit limit start held

/-- A loop whose step leads from one good value to another, or to a good result. -/
theorem ensures_repeatUntil
    {invariant : β → Prop}
    {step : β → Run σ (β ⊕ α)}
    (steps : ∀ current, invariant current →
      Ensures holds (Sum.elim invariant given) allowed (step current))
    {start : β}
    (holdsStart : invariant start) :
    Ensures holds given allowed (repeatUntil step start) := by
  have rounds (count limit : Nat) (current : β) (now : σ) (good : invariant current)
      (held : holds now) :
      holds (repeatAtMost step count current limit now).2 ∧
        (∀ value, (repeatAtMost step count current limit now).1 = .ok value → given value) ∧
        ∀ failure, (repeatAtMost step count current limit now).1 = .error (.failed failure) →
          allowed failure := by
    induction count generalizing current now with
    | zero => exact ⟨held, by simp [repeatAtMost], by simp [repeatAtMost]⟩
    | succ count hypothesis =>
        obtain ⟨heldAfter, fine, excused⟩ := steps current good limit now held
        rw [repeatAtMost]
        rcases ran : step current limit now with ⟨stop | next | result, after⟩
        · rw [ran] at heldAfter excused
          exact ⟨heldAfter, by simp, fun failure same => excused failure (by simpa using same)⟩
        · rw [ran] at heldAfter fine
          exact hypothesis next after (fine _ rfl) heldAfter
        · rw [ran] at heldAfter fine
          refine ⟨heldAfter, fun value same => ?_, by simp⟩
          obtain rfl : result = value := by simpa using same
          exact fine _ rfl
  intro limit now held
  exact rounds limit limit start now holdsStart held

/-- Results that go with the values that they are made of. -/
theorem ensures_mapM
    {good : α → β → Prop}
    {function : α → Run σ β}
    {values : List α}
    (every : ∀ value ∈ values, Ensures holds (good value) allowed (function value)) :
    Ensures holds (List.Forall₂ good values) allowed (values.mapM function) := by
  induction values with
  | nil =>
      rw [List.mapM_nil]
      exact ensures_pure .nil
  | cons first rest hypothesis =>
      rw [List.mapM_cons]
      refine (every first List.mem_cons_self).bind fun result goodResult => ?_
      refine (hypothesis fun value member => every value (List.mem_cons_of_mem first member)).bind
        fun results goodResults => ?_
      exact ensures_pure (.cons goodResult goodResults)

/-! ## Any value -/

/-- A run keeps a property of its states and stops with none but the allowed failures. -/
def Preserves (holds : σ → Prop) (allowed : Failure → Prop) (run : Run σ α) : Prop :=
  Ensures holds (fun _ => True) allowed run

theorem preserves_pure (value : α) : Preserves holds allowed (pure value : Run σ α) :=
  ensures_pure trivial

theorem preserves_fail
    {failure : Failure}
    (fine : allowed failure) :
    Preserves holds allowed (fail failure : Run σ α) :=
  ensures_fail fine

theorem preserves_goOn : Preserves holds allowed (goOn : Run σ α) :=
  ensures_goOn

/-- A result whose failures are allowed. -/
theorem preserves_ofResult
    {result : Except Failure α}
    (fine : ∀ failure, result = .error failure → allowed failure) :
    Preserves holds allowed (ofResult result : Run σ α) :=
  ensures_ofResult (fun _ _ => trivial) fine

/-- What both runs preserve is preserved. -/
theorem Preserves.bind
    {run : Run σ α}
    {next : α → Run σ β}
    (first : Preserves holds allowed run)
    (second : ∀ value, Preserves holds allowed (next value)) :
    Preserves holds allowed (run >>= next) :=
  Ensures.bind first fun value _ => second value

/-- What follows the state may rely on what holds of it. -/
theorem preserves_state_bind
    {next : σ → Run σ α}
    (follows : ∀ current, holds current → Preserves holds allowed (next current)) :
    Preserves holds allowed (state >>= next) :=
  ensures_state_bind follows

theorem preserves_change
    {update : σ → σ}
    (keeps : ∀ current, holds current → holds (update current)) :
    Preserves holds allowed (change update) :=
  ensures_change keeps

theorem Preserves.thenChange
    {run : Run σ α}
    {update : σ → σ}
    (first : Preserves holds allowed run)
    (keeps : ∀ current, holds current → holds (update current)) :
    Preserves holds allowed (run.thenChange update) :=
  Ensures.thenChange first keeps

/-- A walk preserves what every step does. -/
theorem preserves_mapM
    {function : α → Run σ β}
    {values : List α}
    (every : ∀ value ∈ values, Preserves holds allowed (function value)) :
    Preserves holds allowed (values.mapM function) :=
  have each : ∀ value ∈ values, Ensures holds ((fun _ _ => True) value) allowed (function value) :=
    every
  (ensures_mapM each).mono fun _ _ => trivial

/-- A run on a part of the state which the property says nothing about. -/
theorem preserves_within
    {part : τ → σ}
    {replace : σ → τ → τ}
    {run : Run σ α}
    {holds : τ → Prop}
    (fine : ∀ limit start failure, (run limit start).1 = .error (.failed failure) →
      allowed failure)
    (keeps : ∀ value current, holds current → holds (replace value current)) :
    Preserves holds allowed (Run.within part replace run) := by
  have inside : Preserves (fun _ => True) allowed run :=
    fun limit start _ => ⟨trivial, fun _ _ => trivial, fine limit start⟩
  exact inside.within (fun _ _ => trivial) fun value current _ held => keeps value current held

/-- A loop preserves what it does at every limit. -/
theorem preserves_withLimit
    {run : Nat → Run σ α}
    (every : ∀ limit, Preserves holds allowed (run limit)) :
    Preserves holds allowed (withLimit run) :=
  ensures_withLimit every

end Run
end Reckoner
