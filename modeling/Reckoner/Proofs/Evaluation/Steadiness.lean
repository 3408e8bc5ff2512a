import Reckoner.Evaluation.Scope
import Reckoner.Proofs.Evaluation.Laws

/-!
# Runs whose answers do not depend on caches

A run is steady if neither what the caches hold nor how often it may check for cancellation shows
in its answers: whatever it answers from caches that are in order, it answers from all such
caches, under every limit that is large enough and without cancellation, and it leaves caches
behind that are in order too.  An outcome is an answer unless the run was cancelled or did not
end.

Steadiness is proved for families of runs that a depth bounds, so that it passes through recursions:
a family is steady at a depth if the answers at this depth are those at all greater depths.
-/

namespace Reckoner

/-- A state that contains a machine. -/
class HasMachine (σ : Type) where
  machine : σ → Machine
  withMachine : σ → Machine → σ
  machine_withMachine : ∀ state replaced, machine (withMachine state replaced) = replaced
  withMachine_machine : ∀ state, withMachine state (machine state) = state

instance : HasMachine Machine where
  machine := id
  withMachine _ replaced := replaced
  machine_withMachine _ _ := rfl
  withMachine_machine _ := rfl

instance : HasMachine Evaluation where
  machine := Evaluation.machine
  withMachine evaluation machine := { evaluation with machine }
  machine_withMachine _ _ := rfl
  withMachine_machine _ := rfl

namespace Run

open HasMachine

variable {σ α β : Type} [HasMachine σ] {sound : Caches → Prop}

/-- The caches of a state. -/
def cachesOf (state : σ) : Caches :=
  (machine state).caches

/-- A state without cancellation and with other caches. -/
def undisturbed (state : σ) (caches : Caches) : σ :=
  withMachine state ⟨.never, caches⟩

/-- Whether an outcome is neither cancelled nor missing. -/
def IsAnswer (outcome : Except Stop α) : Prop :=
  outcome ≠ .error .unfinished ∧ outcome ≠ .error (.failed .cancelled)

theorem isAnswer_ok (value : α) : IsAnswer (.ok value : Except Stop α) := by
  simp [IsAnswer]

theorem IsAnswer.of_error {stop : Stop} (answers : IsAnswer (.error stop : Except Stop α)) :
    IsAnswer (.error stop : Except Stop β) := by
  simpa [IsAnswer] using answers

/-- Under every depth and limit that are large enough the runs lead from a state to an outcome and a
final state, whatever sound caches they find, and leave sound caches behind. -/
def Settles
    (sound : Caches → Prop)
    (runs : Nat → Run σ α)
    (start : σ)
    (outcome : Except Stop α)
    (final : σ) : Prop :=
  ∃ bound, ∀ depth ≥ bound, ∀ limit ≥ bound, ∀ caches, sound caches → ∃ after, sound after ∧
    runs depth limit (undisturbed start caches) = (outcome, undisturbed final after)

/-- At a depth the runs leave sound caches behind, and answers at this depth settle. -/
def SteadyAt (sound : Caches → Prop) (runs : Nat → Run σ α) (depth : Nat) : Prop :=
  ∀ limit start, sound (cachesOf start) →
    sound (cachesOf (runs depth limit start).2) ∧
      (IsAnswer (runs depth limit start).1 →
        Settles sound runs start (runs depth limit start).1 (runs depth limit start).2)

/-- A run that is steady at every depth, since it has none. -/
def Steady (sound : Caches → Prop) (run : Run σ α) : Prop :=
  SteadyAt sound (fun _ => run) 0

theorem Steady.at
    {run : Run σ α}
    (steady : Steady sound run)
    (depth : Nat) :
    SteadyAt sound (fun _ => run) depth :=
  steady

/-! ## Single steps -/

/-- An update that does nothing with the machine keeps it. -/
theorem machine_update
    {update : σ → σ}
    (apart : ∀ state replaced,
      update (withMachine state replaced) = withMachine (update state) replaced)
    (state : σ) :
    machine (update state) = machine state := by
  have replaced := apart state (machine state)
  rw [withMachine_machine] at replaced
  rw [replaced, machine_withMachine]

/-- A run that does nothing with the machine. -/
theorem steady_of_untouched
    {run : Run σ α}
    {outcome : σ → Except Stop α}
    {update : σ → σ}
    (runs : ∀ limit state, run limit state = (outcome state, update state))
    (same : ∀ state replaced, outcome (withMachine state replaced) = outcome state)
    (apart : ∀ state replaced,
      update (withMachine state replaced) = withMachine (update state) replaced) :
    Steady sound run := by
  intro limit start held
  simp only [runs]
  refine ⟨?_, fun _ => ⟨0, fun _ _ limit _ caches heldCaches => ⟨caches, heldCaches, ?_⟩⟩⟩
  · rwa [cachesOf, machine_update apart]
  · refine (runs limit _).trans ?_
    rw [undisturbed, same, apart]
    rfl

@[grind ←] theorem steady_pure (value : α) : Steady sound (pure value : Run σ α) :=
  steady_of_untouched (fun _ _ => rfl) (fun _ _ => rfl) (fun _ _ => rfl)

@[grind ←] theorem steady_fail (failure : Failure) : Steady sound (fail failure : Run σ α) :=
  steady_of_untouched (fun _ _ => rfl) (fun _ _ => rfl) (fun _ _ => rfl)

theorem steady_goOn : Steady sound (goOn : Run σ α) :=
  steady_of_untouched (fun _ _ => rfl) (fun _ _ => rfl) (fun _ _ => rfl)

theorem steady_ofResult (result : Except Failure α) : Steady sound (ofResult result : Run σ α) := by
  cases result with
  | ok value => exact steady_pure value
  | error failure => exact steady_fail failure

@[grind ←] theorem steady_lift (result : Except Failure α) :
    Steady sound (liftM result : Run σ α) :=
  steady_ofResult result

theorem steady_change
    {update : σ → σ}
    (apart : ∀ state replaced,
      update (withMachine state replaced) = withMachine (update state) replaced) :
    Steady sound (change update) :=
  steady_of_untouched (fun _ _ => rfl) (fun _ _ => rfl) apart

/-- Nothing is answered at depth zero. -/
theorem steadyAt_goOn {runs : Nat → Run σ α} (none : runs 0 = goOn) : SteadyAt sound runs 0 := by
  intro limit start held
  rw [none]
  exact ⟨held, fun answers => absurd rfl answers.1⟩

/-! ## Runs made of others -/

/-- Steady steps at a depth make a steady run. -/
theorem SteadyAt.bind
    {runs : Nat → Run σ α}
    {next : Nat → α → Run σ β}
    {depth : Nat}
    (first : SteadyAt sound runs depth)
    (second : ∀ value, SteadyAt sound (fun depth => next depth value) depth) :
    SteadyAt sound (fun depth => runs depth >>= next depth) depth := by
  intro limit start held
  obtain ⟨heldMiddle, settlesFirst⟩ := first limit start held
  rcases ran : runs depth limit start with ⟨stop | value, middle⟩
  · rw [ran] at heldMiddle settlesFirst
    dsimp only
    rw [bind_of_error ran]
    refine ⟨heldMiddle, fun answers => ?_⟩
    obtain ⟨bound, settled⟩ := settlesFirst answers.of_error
    refine ⟨bound, fun deeper above longer beyond caches heldCaches => ?_⟩
    obtain ⟨after, heldAfter, same⟩ := settled deeper above longer beyond caches heldCaches
    exact ⟨after, heldAfter, bind_of_error same _⟩
  · rw [ran] at heldMiddle settlesFirst
    dsimp only
    rw [bind_of_ok ran]
    obtain ⟨heldFinal, settlesSecond⟩ := second value limit middle heldMiddle
    refine ⟨heldFinal, fun answers => ?_⟩
    obtain ⟨firstBound, settledFirst⟩ := settlesFirst (isAnswer_ok value)
    obtain ⟨secondBound, settledSecond⟩ := settlesSecond answers
    refine ⟨max firstBound secondBound, fun deeper above longer beyond caches heldCaches => ?_⟩
    obtain ⟨between, heldBetween, same⟩ :=
      settledFirst deeper (by omega) longer (by omega) caches heldCaches
    obtain ⟨after, heldAfter, last⟩ :=
      settledSecond deeper (by omega) longer (by omega) between heldBetween
    exact ⟨after, heldAfter, (bind_of_ok same _).trans last⟩

/-- Two steady runs make one. -/
@[grind ←] theorem Steady.bind
    {run : Run σ α}
    {next : α → Run σ β}
    (first : Steady sound run)
    (second : ∀ value, Steady sound (next value)) :
    Steady sound (run >>= next) :=
  SteadyAt.bind first second

/-- What follows the state may depend on everything but the machine. -/
theorem steadyAt_state_bind
    {next : Nat → σ → Run σ α}
    {depth : Nat}
    (blind : ∀ depth state replaced, next depth (withMachine state replaced) = next depth state)
    (steady : ∀ state, SteadyAt sound (fun depth => next depth state) depth) :
    SteadyAt sound (fun depth => state >>= next depth) depth := by
  intro limit start held
  obtain ⟨heldAfter, settles⟩ := steady start limit start held
  refine ⟨heldAfter, fun answers => ?_⟩
  obtain ⟨bound, settled⟩ := settles answers
  refine ⟨bound, fun deeper above longer beyond caches heldCaches => ?_⟩
  obtain ⟨after, heldAfter, same⟩ := settled deeper above longer beyond caches heldCaches
  refine ⟨after, heldAfter, ?_⟩
  have followed := congrArg (fun run : Run σ α => run longer (undisturbed start caches))
    (blind deeper start ⟨.never, caches⟩)
  exact followed.trans same

/-- A change apart from the machine keeps a run steady. -/
theorem SteadyAt.thenChange
    {runs : Nat → Run σ α}
    {update : σ → σ}
    {depth : Nat}
    (steady : SteadyAt sound runs depth)
    (apart : ∀ state replaced,
      update (withMachine state replaced) = withMachine (update state) replaced) :
    SteadyAt sound (fun depth => (runs depth).thenChange update) depth := by
  intro limit start held
  obtain ⟨heldAfter, settles⟩ := steady limit start held
  refine ⟨?_, fun answers => ?_⟩
  · rw [cachesOf] at heldAfter ⊢
    exact (machine_update apart _).symm ▸ heldAfter
  · obtain ⟨bound, settled⟩ := settles answers
    refine ⟨bound, fun deeper above longer beyond caches heldCaches => ?_⟩
    obtain ⟨after, heldAfter, same⟩ := settled deeper above longer beyond caches heldCaches
    refine ⟨after, heldAfter, ?_⟩
    have changed := congrArg (fun ending : Except Stop α × σ => (ending.1, update ending.2)) same
    refine changed.trans (Prod.ext rfl ?_)
    exact apart _ _

/-- A walk is steady when every step is. -/
theorem steadyAt_mapM
    {runs : Nat → α → Run σ β}
    {values : List α}
    {depth : Nat}
    (every : ∀ value ∈ values, SteadyAt sound (fun depth => runs depth value) depth) :
    SteadyAt sound (fun depth => values.mapM (runs depth)) depth := by
  induction values with
  | nil =>
      simp only [List.mapM_nil]
      exact (steady_pure []).at depth
  | cons first rest hypothesis =>
      simp only [List.mapM_cons]
      refine SteadyAt.bind (every first List.mem_cons_self) fun value => ?_
      refine SteadyAt.bind
        (hypothesis fun other member => every other (List.mem_cons_of_mem first member))
          fun values => ?_
      exact (steady_pure (value :: values)).at depth

/-- A recursion that answers at a depth answers one level further down. -/
theorem SteadyAt.succ
    {runs body : Nat → Run σ α}
    {depth : Nat}
    (unfolds : ∀ depth, runs (depth + 1) = body depth)
    (steady : SteadyAt sound body depth) :
    SteadyAt sound runs (depth + 1) := by
  intro limit start held
  rw [unfolds]
  obtain ⟨heldAfter, settles⟩ := steady limit start held
  refine ⟨heldAfter, fun answers => ?_⟩
  obtain ⟨bound, settled⟩ := settles answers
  refine ⟨bound + 1, fun deeper above longer beyond caches heldCaches => ?_⟩
  obtain ⟨shallower, rfl⟩ : ∃ shallower, deeper = shallower + 1 := ⟨deeper - 1, by omega⟩
  rw [unfolds]
  exact settled shallower (by omega) longer (by omega) caches heldCaches

/-- A recursion that is as deep as the limit allows. -/
theorem steady_withLimit
    {runs : Nat → Run σ α}
    (steady : ∀ depth, SteadyAt sound runs depth) :
    Steady sound (withLimit runs) := by
  intro limit start held
  obtain ⟨heldAfter, settles⟩ := steady limit limit start held
  refine ⟨heldAfter, fun answers => ?_⟩
  obtain ⟨bound, settled⟩ := settles answers
  exact ⟨bound, fun _ _ longer beyond caches heldCaches =>
    settled longer beyond longer beyond caches heldCaches⟩

/-- A loop whose step is steady. -/
@[grind ←] theorem steady_repeatUntil
    {step : β → Run σ (β ⊕ α)}
    (steady : ∀ current, Steady sound (step current))
    (start : β) :
    Steady sound (repeatUntil step start) := by
  have rounds (depth : Nat) :
      ∀ current, SteadyAt sound (fun rounds => repeatAtMost step rounds current) depth := by
    induction depth with
    | zero => exact fun current => steadyAt_goOn rfl
    | succ depth hypothesis =>
        intro current
        have unfolds (rounds : Nat) : repeatAtMost step (rounds + 1) current =
            step current >>= fun
              | .inl next => repeatAtMost step rounds next
              | .inr result => pure result := by
          funext limit state
          rw [repeatAtMost]
          rcases ran : step current limit state with ⟨_ | _ | _, _⟩
          · rw [bind_of_error ran]
          · rw [bind_of_ok ran]
          · rw [bind_of_ok ran]
            rfl
        refine SteadyAt.succ unfolds (SteadyAt.bind ((steady current).at depth) fun outcome => ?_)
        cases outcome with
        | inl next => exact hypothesis next
        | inr result => exact (steady_pure result).at depth
  exact steady_withLimit fun depth => rounds depth start

/-! ## Calculations -/

/-- A check that passes would have passed without cancellation, too. -/
@[grind ←] theorem steady_check : Steady sound Calc.check := by
  intro limit start held
  simp only [Calc.check_eq]
  refine ⟨held, fun answers => ?_⟩
  split at answers
  next => exact absurd rfl answers.2
  next passes =>
    rw [if_neg passes]
    exact ⟨0, fun _ _ longer _ caches heldCaches =>
      ⟨caches, heldCaches, Calc.check_eq longer ⟨.never, caches⟩⟩⟩

/-- A calculation as a part of an evaluation. -/
theorem Steady.calculate
    {calculation : Calc α}
    (steady : Steady sound calculation) :
    Steady sound (Eval.calculate calculation) := by
  intro limit start held
  obtain ⟨heldAfter, settles⟩ := steady limit start.machine held
  refine ⟨heldAfter, fun answers => ?_⟩
  obtain ⟨bound, settled⟩ := settles answers
  refine ⟨bound, fun deeper above longer beyond caches heldCaches => ?_⟩
  obtain ⟨after, heldAfter, same⟩ := settled deeper above longer beyond caches heldCaches
  refine ⟨after, heldAfter, ?_⟩
  exact congrArg (fun ending : Except Stop α × Machine =>
    (ending.1, ({ start with machine := ending.2 } : Evaluation))) same

/-- A calculation that looks at the bindings, of which caches are no part. -/
theorem steady_calculateIn
    {calculation : Context → Calc α}
    (steady : ∀ context, Steady sound (calculation context)) :
    Steady sound (Eval.calculateIn calculation) :=
  fun limit start held => (steady start.context).calculate limit start held

end Run
end Reckoner
