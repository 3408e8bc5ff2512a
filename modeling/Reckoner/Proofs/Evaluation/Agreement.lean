import Reckoner.Proofs.Evaluation.Laws
import Reckoner.Proofs.Number.Forms

/-!
# Runs that agree

Two runs agree if they end alike whenever they start alike.  Either both give values, that are
related to each other, or both fail in one category, or both go on beyond the limit; and they
leave states behind that are alike.  Agreement goes from the parts of runs to what is composed of
them: both sides branch in the same way and loop as often.
-/

namespace Reckoner

/-- Two runs stop alike. -/
inductive Stop.SameReason : Stop → Stop → Prop
  | failed {first second : Failure} (alike : Alike first second) :
      SameReason (.failed first) (.failed second)
  | unfinished : SameReason .unfinished .unfinished

instance : HasForms Stop := ⟨Stop.SameReason⟩

/-- What calculations keep in the caches depends on no number that they are given, so machines do
not come in several forms. -/
instance : HasForms Machine := ⟨Eq⟩

namespace Run

variable {σ α β : Type} [HasForms σ] {related : α → α → Prop} {results : β → β → Prop}

/-- Two runs that end alike when they start in states that are alike. -/
def Agree (related : α → α → Prop) (run other : Run σ α) : Prop :=
  ∀ limit start begin, Alike start begin →
    Matching related (run limit start).1 (other limit begin).1 ∧
      Alike (run limit start).2 (other limit begin).2

theorem agree_pure {value other : α} (values : related value other) :
    Agree related (pure value : Run σ α) (pure other) :=
  fun _ _ _ alike => ⟨.ok values, alike⟩

theorem agree_fail {failure other : Failure} (alike : Alike failure other) :
    Agree related (fail failure : Run σ α) (fail other) :=
  fun _ _ _ states => ⟨.error (.failed alike), states⟩

theorem agree_goOn : Agree related (goOn : Run σ α) goOn :=
  fun _ _ _ alike => ⟨.error .unfinished, alike⟩

/-- Results that match. -/
theorem agree_lift {result other : Except Failure α} (matching : Matching related result other) :
    Agree related (liftM result : Run σ α) (liftM other) := by
  cases matching with
  | ok values => exact agree_pure values
  | error failures => exact agree_fail failures

/-- Runs that agree go on in agreement. -/
theorem Agree.bind
    {run other : Run σ α}
    {next following : α → Run σ β}
    (first : Agree related run other)
    (second : ∀ value other, related value other → Agree results (next value) (following other)) :
    Agree results (run >>= next) (other >>= following) := by
  intro limit start begin alike
  obtain ⟨matching, states⟩ := first limit start begin alike
  rcases ran : run limit start with ⟨outcome, after⟩
  rcases ranOther : other limit begin with ⟨outcomeOther, afterOther⟩
  rw [ran, ranOther] at matching states
  cases matching with
  | ok values =>
      rw [bind_of_ok ran, bind_of_ok ranOther]
      exact second _ _ values limit after afterOther states
  | error stops =>
      rw [bind_of_error ran, bind_of_error ranOther]
      exact ⟨.error stops, states⟩

/-- Branches agree when the conditions do. -/
theorem agree_ite
    {condition conditionOther : Prop}
    [Decidable condition]
    [Decidable conditionOther]
    {first second partner other : Run σ α}
    (same : condition ↔ conditionOther)
    (positive : condition → Agree related first partner)
    (negative : ¬condition → Agree related second other) :
    Agree related (if condition then first else second)
      (if conditionOther then partner else other) := by
  by_cases holds : condition
  · rw [if_pos holds, if_pos (same.1 holds)]
    exact positive holds
  · rw [if_neg holds, if_neg (mt same.2 holds)]
    exact negative holds

/-- A choice that both sides make in the same way. -/
theorem agree_test
    {test testOther : Except Failure Bool}
    {first second partner other : Run σ α}
    (matching : Matching Eq test testOther)
    (positive : Agree related first partner)
    (negative : Agree related second other) :
    Agree related (liftM test >>= fun holds => if holds = true then first else second)
      (liftM testOther >>= fun holds => if holds = true then partner else other) := by
  refine (agree_lift matching).bind fun holds _ same => ?_
  subst same
  exact agree_ite Iff.rfl (fun _ => positive) fun _ => negative

/-- What follows the state. -/
theorem agree_state_bind
    {next following : σ → Run σ α}
    (follows : ∀ current other, Alike current other →
      Agree related (next current) (following other)) :
    Agree related (state >>= next) (state >>= following) :=
  fun limit start begin alike => follows start begin alike limit start begin alike

theorem agree_change
    {update updateOther : σ → σ}
    (agrees : ∀ current other, Alike current other → Alike (update current) (updateOther other)) :
    Agree Eq (change update) (change updateOther) :=
  fun _ start begin alike => ⟨.ok rfl, agrees start begin alike⟩

theorem Agree.thenChange
    {run other : Run σ α}
    {update updateOther : σ → σ}
    (agree : Agree related run other)
    (agrees : ∀ current other, Alike current other → Alike (update current) (updateOther other)) :
    Agree related (run.thenChange update) (other.thenChange updateOther) :=
  fun limit start begin alike =>
    (agree limit start begin alike).imp id fun states => agrees _ _ states

/-- Loops agree when they do at every limit. -/
theorem agree_withLimit
    {run other : Nat → Run σ α}
    (every : ∀ limit, Agree related (run limit) (other limit)) :
    Agree related (withLimit run) (withLimit other) :=
  fun limit start begin alike => every limit limit start begin alike

/-- Loops whose steps lead from data that are related to others, or to results that are. -/
theorem agree_repeatUntil
    {invariant : β → β → Prop}
    {step stepOther : β → Run σ (β ⊕ α)}
    (steps : ∀ current other, invariant current other →
      Agree (Sum.LiftRel invariant related) (step current) (stepOther other))
    {first second : β}
    (holdsStart : invariant first second) :
    Agree related (repeatUntil step first) (repeatUntil stepOther second) := by
  -- Both sides take the same number of rounds, and the induction is on what is left of them.
  have rounds (count limit : Nat) (current other : β) (now nowOther : σ)
      (holds : invariant current other) (alike : Alike now nowOther) :
      Matching related (repeatAtMost step count current limit now).1
          (repeatAtMost stepOther count other limit nowOther).1 ∧
        Alike (repeatAtMost step count current limit now).2
          (repeatAtMost stepOther count other limit nowOther).2 := by
    induction count generalizing current other now nowOther with
    | zero => exact ⟨.error .unfinished, alike⟩
    | succ count hypothesis =>
        obtain ⟨matching, states⟩ := steps current other holds limit now nowOther alike
        rw [repeatAtMost, repeatAtMost]
        rcases ran : step current limit now with ⟨outcome, after⟩
        rcases ranOther : stepOther other limit nowOther with ⟨outcomeOther, afterOther⟩
        rw [ran, ranOther] at matching states
        cases matching with
        | error stops => exact ⟨.error stops, states⟩
        | ok values =>
            cases values with
            | inl further => exact hypothesis _ _ after afterOther further states
            | inr values => exact ⟨.ok values, states⟩
  intro limit now nowOther alike
  exact rounds limit limit first second now nowOther holdsStart alike

/-- Walks agree when every step does. -/
theorem agree_mapM
    {γ : Type}
    {function other : γ → Run σ α}
    {entries : List γ}
    (every : ∀ entry ∈ entries, Agree related (function entry) (other entry)) :
    Agree (List.Forall₂ related) (entries.mapM function) (entries.mapM other) := by
  induction entries with
  | nil =>
      rw [List.mapM_nil, List.mapM_nil]
      exact agree_pure .nil
  | cons first rest hypothesis =>
      rw [List.mapM_cons, List.mapM_cons]
      refine (every first List.mem_cons_self).bind fun value partner values => ?_
      refine (hypothesis fun entry member => every entry (List.mem_cons_of_mem first member)).bind
        fun others partners further => ?_
      exact agree_pure (.cons values further)

/-- A calculation that depends on no number but those of its machine. -/
theorem agree_refl
    {run : Calc α}
    (reflexive : ∀ value, related value value) :
    Agree related run run := by
  rintro limit start _ rfl
  refine ⟨?_, rfl⟩
  cases (run limit start).1 with
  | ok value => exact .ok (reflexive value)
  | error stop =>
      refine .error ?_
      cases stop with
      | failed failure => exact .failed rfl
      | unfinished => exact .unfinished

end Run

theorem Calc.agree_check : Run.Agree Eq Calc.check Calc.check :=
  Run.agree_refl fun _ => rfl

/-- A calculation of a number that depends on no other number but those of its machine. -/
theorem Calc.agree_self (run : Calc Number) : Run.Agree Alike run run :=
  Run.agree_refl Number.alike_refl

end Reckoner
