import Reckoner.Evaluation.Reduction
import Reckoner.Proofs.Evaluation.Laws

/-!
# Runs that come to an end

A family of runs, bounded by a depth, comes to an end from a state if under every depth and limit
that are large enough it ends in one way: with one value or failure and in one final state.  What
is required of these is said alongside, and each way to build runs has one rule.
-/

namespace Reckoner
namespace Run

variable {σ α β : Type} {required : Except Failure α → σ → Prop} {start : σ}

/-- From a state the runs end with a result and in a final state as required, the same ones under
every depth and limit that are large enough. -/
def Ends
    (runs : Nat → Run σ α)
    (start : σ)
    (required : Except Failure α → σ → Prop) : Prop :=
  ∃ result final, required result final ∧
    ∃ bound, ∀ depth ≥ bound, ∀ limit ≥ bound,
      runs depth limit start = ofResult result limit final

theorem Ends.mono
    {runs : Nat → Run σ α}
    {weaker : Except Failure α → σ → Prop}
    (ends : Ends runs start required)
    (implies : ∀ result final, required result final → weaker result final) :
    Ends runs start weaker := by
  obtain ⟨result, final, met, same⟩ := ends
  exact ⟨result, final, implies result final met, same⟩

/-! ## Single steps -/

theorem ends_ofResult
    {result : Except Failure α}
    (met : required result start) :
    Ends (fun _ => ofResult result) start required :=
  ⟨result, start, met, 0, fun _ _ _ _ => rfl⟩

theorem ends_lift
    {result : Except Failure α}
    (met : required result start) :
    Ends (fun _ => liftM result) start required :=
  ends_ofResult met

theorem ends_pure
    {value : α}
    (met : required (.ok value) start) :
    Ends (fun _ => pure value) start required :=
  ends_ofResult met

theorem ends_fail
    {failure : Failure}
    (met : required (.error failure) start) :
    Ends (fun _ => fail failure) start required :=
  ends_ofResult met

/-! ## Runs made of others -/

theorem Ends.bind
    {runs : Nat → Run σ α}
    {next : Nat → α → Run σ β}
    {middle : Except Failure α → σ → Prop}
    {required : Except Failure β → σ → Prop}
    (first : Ends runs start middle)
    (succeeds : ∀ value after, middle (.ok value) after →
      Ends (fun depth => next depth value) after required)
    (fails : ∀ failure after, middle (.error failure) after → required (.error failure) after) :
    Ends (fun depth => runs depth >>= next depth) start required := by
  obtain ⟨result, between, met, firstBound, same⟩ := first
  cases result with
  | error failure =>
      refine ⟨.error failure, between, fails failure between met, firstBound, ?_⟩
      intro depth deep limit long
      exact bind_of_error (same depth deep limit long) _
  | ok value =>
      obtain ⟨result, final, met, secondBound, last⟩ := succeeds value between met
      refine ⟨result, final, met, max firstBound secondBound, ?_⟩
      intro depth deep limit long
      exact (bind_of_ok (same depth (by omega) limit (by omega)) _).trans
        (last depth (by omega) limit (by omega))

/-- What follows the state goes on from this state. -/
theorem ends_state_bind
    {next : Nat → σ → Run σ α}
    (follows : Ends (fun depth => next depth start) start required) :
    Ends (fun depth => state >>= next depth) start required :=
  follows

/-- What follows a change goes on from the changed state. -/
theorem ends_change_bind
    {next : Nat → Unit → Run σ α}
    {update : σ → σ}
    (follows : Ends (fun depth => next depth ()) (update start) required) :
    Ends (fun depth => change update >>= next depth) start required :=
  follows

theorem Ends.thenChange
    {runs : Nat → Run σ α}
    {update : σ → σ}
    (ends : Ends runs start fun result final => required result (update final)) :
    Ends (fun depth => (runs depth).thenChange update) start required := by
  obtain ⟨result, final, met, bound, same⟩ := ends
  refine ⟨result, update final, met, bound, fun depth deep limit long => ?_⟩
  have changed := congrArg (fun ending : Except Stop α × σ => (ending.1, update ending.2))
    (same depth deep limit long)
  cases result <;> exact changed

/-- A result for every value of a list, or the first failure among them; what holds in between is
kept by each of the runs. -/
theorem ends_mapM
    {function : Nat → α → Run σ β}
    {values : List α}
    {holds : σ → Prop}
    (every : ∀ value ∈ values, ∀ state, holds state →
      Ends (fun depth => function depth value) state (fun _ final => holds final))
    (held : holds start) :
    Ends (fun depth => values.mapM (function depth)) start (fun _ final => holds final) := by
  induction values generalizing start with
  | nil =>
      simp only [List.mapM_nil]
      exact ends_pure held
  | cons first rest hypothesis =>
      simp only [List.mapM_cons]
      refine (every first List.mem_cons_self start held).bind (fun value after held => ?_)
        fun _ _ held => held
      refine (hypothesis (fun other member => every other (List.mem_cons_of_mem first member))
        held).bind (fun values after held => ?_) fun _ _ held => held
      exact ends_pure held

/-- A recursion that ends one level further down. -/
theorem Ends.succ
    {runs body : Nat → Run σ α}
    (unfolds : ∀ depth, runs (depth + 1) = body depth)
    (ends : Ends body start required) :
    Ends runs start required := by
  obtain ⟨result, final, met, bound, same⟩ := ends
  refine ⟨result, final, met, bound + 1, fun depth deep limit long => ?_⟩
  obtain ⟨shallower, rfl⟩ : ∃ shallower, depth = shallower + 1 := ⟨depth - 1, by omega⟩
  rw [unfolds]
  exact same shallower (by omega) limit (by omega)

/-- A recursion that is as deep as the limit allows. -/
theorem Ends.withLimit
    {runs : Nat → Run σ α}
    (ends : Ends runs start required) :
    Ends (fun _ => withLimit runs) start required := by
  obtain ⟨result, final, met, bound, same⟩ := ends
  exact ⟨result, final, met, bound, fun _ _ limit long => same limit long limit long⟩

/-! ## Calculations -/

/-- A calculation as a part of an evaluation. -/
theorem Ends.calculate
    {runs : Nat → Calc α}
    {evaluation : Evaluation}
    {required : Except Failure α → Evaluation → Prop}
    (ends : Ends runs evaluation.machine fun result machine =>
      required result { evaluation with machine }) :
    Ends (fun depth => Eval.calculate (runs depth)) evaluation required := by
  obtain ⟨result, machine, met, bound, same⟩ := ends
  refine ⟨result, { evaluation with machine }, met, bound, fun depth deep limit long => ?_⟩
  have inside := congrArg (fun ending : Except Stop α × Machine =>
    (ending.1, ({ evaluation with machine := ending.2 } : Evaluation))) (same depth deep limit long)
  cases result <;> exact inside

/-- A calculation that looks at the bindings sees those of the evaluation. -/
theorem Ends.calculateIn
    {calculation : Context → Calc α}
    {evaluation : Evaluation}
    {required : Except Failure α → Evaluation → Prop}
    (ends : Ends (fun _ => calculation evaluation.context) evaluation.machine fun result machine =>
      required result { evaluation with machine }) :
    Ends (fun _ => Eval.calculateIn calculation) evaluation required :=
  ends.calculate

/-- A check takes one answer, and fails if the answer is to stop. -/
theorem ends_check
    {evaluation : Evaluation}
    {required : Except Failure Unit → Evaluation → Prop}
    (met : required
      (if evaluation.machine.cancellation.isCancelled then .error .cancelled else .ok ())
      { evaluation with
        machine := { evaluation.machine with
          cancellation := evaluation.machine.cancellation.next } }) :
    Ends (fun _ => Eval.check) evaluation required := by
  have checks (limit : Nat) :
      Calc.check limit evaluation.machine = ofResult
        (if evaluation.machine.cancellation.isCancelled then .error .cancelled else .ok ()) limit
        { evaluation.machine with cancellation := evaluation.machine.cancellation.next } := by
    rw [Calc.check_eq]
    split <;> rfl
  exact Ends.calculate ⟨_, _, met, 0, fun _ _ limit _ => checks limit⟩

end Run
end Reckoner
