import Reckoner.Proofs.Evaluation.Caching

/-!
# Runs that complete

A calculation completes if without cancellation and under every limit that is large enough it
gives a value, one and the same from all caches that are in order.  What is said of its value
follows the way the calculation is made: a calculation followed by another one completes if both
do, and a loop completes if its steps do and keep an invariant that bounds how many of them are
left.  A recursion completes within so many levels if each level completes whenever the next one
does.
-/

namespace Reckoner
namespace Run

variable {σ α β : Type} {sound : Caches → Prop} {good : α → Prop}

theorem lift_ok (value : α) : (liftM (.ok value : Except Failure α) : Run σ α) = pure value := rfl

/-- Without cancellation and under every limit that is large enough a calculation gives a good
value, from all sound caches the same one, and leaves sound caches behind. -/
def Completes (sound : Caches → Prop) (run : Calc α) (good : α → Prop) : Prop :=
  ∃ value, good value ∧ ∃ bound, ∀ limit ≥ bound, ∀ caches, sound caches → ∃ after, sound after ∧
    run limit ⟨.never, caches⟩ = (.ok value, ⟨.never, after⟩)

/-- What a step of a loop leads to if so many rounds are left: a state in which fewer are left,
or a good result. -/
def Advances (invariant : Nat → β → Prop) (good : α → Prop) (left : Nat) : β ⊕ α → Prop
  | .inl next => ∃ fewer < left, invariant fewer next
  | .inr result => good result

/-- A step of a loop leads from a state to another one. -/
def LeadsTo (sound : Caches → Prop) (step : β → Calc (β ⊕ α)) (current next : β) : Prop :=
  Completes sound (step current) (· = .inl next)

namespace Completes

/-- What completes with a good value completes with a weaker one. -/
theorem mono
    {run : Calc α}
    {better : α → Prop}
    (completes : Completes sound run good)
    (weaker : ∀ value, good value → better value) :
    Completes sound run better :=
  completes.imp fun value found => ⟨weaker value found.1, found.2⟩

/-- What a calculation gives is one value. -/
theorem settle {run : Calc α} (completes : Completes sound run good) :
    ∃ value, good value ∧ Completes sound run (· = value) := by
  obtain ⟨value, holds, runs⟩ := completes
  exact ⟨value, holds, value, rfl, runs⟩

theorem pure {value : α} (holds : good value) : Completes sound (pure value) good :=
  ⟨value, holds, 0, fun _ _ caches held => ⟨caches, held, rfl⟩⟩

theorem check : Completes sound Calc.check fun _ => True :=
  ⟨(), trivial, 0, fun limit _ caches held => ⟨caches, held, Calc.check_eq limit ⟨.never, caches⟩⟩⟩

/-- What completes in two steps completes. -/
theorem bind
    {run : Calc α}
    {next : α → Calc β}
    {better : β → Prop}
    (first : Completes sound run good)
    (second : ∀ value, good value → Completes sound (next value) better) :
    Completes sound (run >>= next) better := by
  obtain ⟨value, holds, firstBound, runs⟩ := first
  obtain ⟨last, holdsLast, secondBound, goesOn⟩ := second value holds
  refine ⟨last, holdsLast, max firstBound secondBound, fun limit above caches held => ?_⟩
  obtain ⟨between, heldBetween, same⟩ := runs limit (by omega) caches held
  obtain ⟨after, heldAfter, ends⟩ := goesOn limit (by omega) between heldBetween
  exact ⟨after, heldAfter, (bind_of_ok same next).trans ends⟩

/-- The rounds of a loop: step after step leads to a last state, from which the result is taken. -/
theorem repeatAtMost
    {step : β → Calc (β ⊕ α)}
    (invariant : Nat → β → Prop)
    (ends : β → α → Prop)
    (steps : ∀ left current, invariant left current →
      Completes sound (step current) (Advances invariant (ends current) left))
    {left : Nat}
    {start : β}
    (holds : invariant left start) :
    ∃ last result, ends last result ∧
      Relation.ReflTransGen (LeadsTo sound step) start last ∧
      Completes sound (step last) (· = .inr result) ∧
      ∃ bound, ∀ rounds ≥ bound, ∀ limit ≥ bound, ∀ caches, sound caches →
        ∃ after, sound after ∧
          Run.repeatAtMost step rounds start limit ⟨.never, caches⟩ =
            (.ok result, ⟨.never, after⟩) := by
  induction left using Nat.strongRecOn generalizing start with
  | ind left hypothesis =>
      obtain ⟨outcome, holdsOutcome, stepBound, runs⟩ := steps left start holds
      cases outcome with
      | inr result =>
          refine ⟨start, result, holdsOutcome, .refl, ⟨_, rfl, stepBound, runs⟩, stepBound + 1,
            fun rounds many limit above caches held => ?_⟩
          obtain ⟨fewer, rfl⟩ : ∃ fewer, rounds = fewer + 1 := ⟨rounds - 1, by omega⟩
          obtain ⟨after, heldAfter, same⟩ := runs limit (by omega) caches held
          refine ⟨after, heldAfter, ?_⟩
          rw [Run.repeatAtMost, same]
      | inl next =>
          obtain ⟨remaining, fewer, holdsNext⟩ := holdsOutcome
          obtain ⟨last, result, holdsResult, trace, stops, restBound, rest⟩ :=
            hypothesis remaining fewer holdsNext
          refine ⟨last, result, holdsResult, .head ⟨_, rfl, stepBound, runs⟩ trace, stops,
            max stepBound restBound + 1, fun rounds many limit above caches held => ?_⟩
          obtain ⟨others, rfl⟩ : ∃ others, rounds = others + 1 := ⟨rounds - 1, by omega⟩
          obtain ⟨between, heldBetween, same⟩ := runs limit (by omega) caches held
          obtain ⟨after, heldAfter, ends⟩ :=
            rest others (by omega) limit (by omega) between heldBetween
          refine ⟨after, heldAfter, ?_⟩
          rw [Run.repeatAtMost, same]
          exact ends

/-- A loop reaches a last state if an invariant holds until then, which says how many more rounds
there can be. -/
theorem repeatUntil_trace
    {step : β → Calc (β ⊕ α)}
    (invariant : Nat → β → Prop)
    (ends : β → α → Prop)
    (steps : ∀ left current, invariant left current →
      Completes sound (step current) (Advances invariant (ends current) left))
    {left : Nat}
    {start : β}
    (holds : invariant left start) :
    ∃ last result, ends last result ∧
      Relation.ReflTransGen (LeadsTo sound step) start last ∧
      Completes sound (step last) (· = .inr result) ∧
      Completes sound (repeatUntil step start) (· = result) := by
  obtain ⟨last, result, holdsResult, trace, stops, bound, runs⟩ :=
    repeatAtMost invariant ends steps holds
  exact ⟨last, result, holdsResult, trace, stops, result, rfl, bound, fun limit above caches held =>
    runs limit above limit above caches held⟩

/-- A loop completes if the result is good whatever the last state is. -/
theorem repeatUntil
    {step : β → Calc (β ⊕ α)}
    (invariant : Nat → β → Prop)
    (steps : ∀ left current, invariant left current →
      Completes sound (step current) (Advances invariant good left))
    {left : Nat}
    {start : β}
    (holds : invariant left start) :
    Completes sound (repeatUntil step start) good := by
  obtain ⟨_, result, holdsResult, -, -, completes⟩ :=
    repeatUntil_trace invariant (fun _ => good) steps holds
  exact completes.mono fun _ same => same ▸ holdsResult

/-- A value that is kept once it has been worked out. -/
theorem remember
    {base : Caches → Prop}
    {kept : Caches → Option α}
    {store : α → Caches → Caches}
    {compute : Calc α}
    (completes : Completes sound compute good)
    (nonempty : ∃ caches, sound caches)
    (remembers : Remembers sound base kept store compute) :
    Completes sound (remember kept store compute) good := by
  obtain ⟨value, holds, bound, runs⟩ := completes
  have obtained : Obtains base compute value := by
    obtain ⟨caches, held⟩ := nonempty
    obtain ⟨after, -, same⟩ := runs bound (Nat.le_refl bound) caches held
    exact ⟨bound, ⟨.never, caches⟩, remembers.weaker caches held, by rw [same]⟩
  exact ⟨value, holds, bound, remembers.settles obtained runs⟩

/-- The factorial of a number, whatever the table holds already. -/
theorem factorial
    (guards : Caches.GuardsFactorials sound)
    {kind : NumberKind}
    {number : Nat}
    {product : Number}
    (known : Caches.factorialOf kind number = .ok product) :
    Completes sound (Calc.factorial kind number) (· = product) := by
  refine ⟨product, rfl, 0, fun limit _ caches held => ?_⟩
  obtain ⟨outcome, cancellation, after, runs, heldAfter, _, undisturbed⟩ :=
    Caches.factorial_poll guards kind number limit ⟨.never, caches⟩ held
  obtain ⟨rfl, rfl⟩ := undisturbed rfl
  refine ⟨after, heldAfter, (bind_of_ok runs _).trans ?_⟩
  rw [known]
  rfl

end Completes

/-! ## Recursions -/

/-- A recursion that ends after so many levels: with these it completes, and further ones change
nothing. -/
structure CompletesWithin
    (sound : Caches → Prop)
    (run : Nat → Calc α)
    (depth : Nat)
    (good : α → Prop) : Prop where
  completes : Completes sound (run depth) good
  settled : ∀ more, run (depth + more) = run depth

namespace CompletesWithin

/-- A level that calls no other one. -/
theorem leaf
    {run : Nat → Calc α}
    (last : Calc α)
    (unfolds : ∀ depth, run (depth + 1) = last)
    (completes : Completes sound last good) :
    CompletesWithin sound run 1 good where
  completes := unfolds 0 ▸ completes
  settled more := by
    rw [Nat.add_comm, unfolds, unfolds]

/-- A level above another one. -/
theorem call
    {inner : Nat → Calc α}
    {outer : Nat → Calc β}
    {better : β → Prop}
    {depth : Nat}
    (context : Calc α → Calc β)
    (within : CompletesWithin sound inner depth good)
    (unfolds : ∀ depth, outer (depth + 1) = context (inner depth))
    (completes : ∀ run, Completes sound run good → Completes sound (context run) better) :
    CompletesWithin sound outer (depth + 1) better where
  completes := by
    rw [unfolds]
    exact completes _ within.completes
  settled more := by
    rw [Nat.add_right_comm, unfolds, unfolds, within.settled]

theorem mono
    {run : Nat → Calc α}
    {depth : Nat}
    {better : α → Prop}
    (within : CompletesWithin sound run depth good)
    (weaker : ∀ value, good value → better value) :
    CompletesWithin sound run depth better :=
  ⟨within.completes.mono weaker, within.settled⟩

/-- More depth does no harm. -/
theorem deepen
    {run : Nat → Calc α}
    {depth deeper : Nat}
    (within : CompletesWithin sound run depth good)
    (enough : depth ≤ deeper) :
    CompletesWithin sound run deeper good := by
  obtain ⟨further, rfl⟩ := Nat.exists_eq_add_of_le enough
  constructor
  · rw [within.settled]
    exact within.completes
  · intro more
    rw [Nat.add_assoc, within.settled, within.settled]

/-- A recursion that may go as deep as the limit says. -/
theorem withLimit
    {run : Nat → Calc α}
    {depth : Nat}
    (within : CompletesWithin sound run depth good) :
    Completes sound (Run.withLimit run) good := by
  obtain ⟨value, holds, bound, runs⟩ := within.completes
  refine ⟨value, holds, max bound depth, fun limit above caches held => ?_⟩
  obtain ⟨more, rfl⟩ := Nat.exists_eq_add_of_le (show depth ≤ limit by omega)
  rw [Run.withLimit, within.settled]
  exact runs (depth + more) (by omega) caches held

end CompletesWithin

/-- A recursion that from some depth on completes with one value, however deep it may go.  Unlike
in `CompletesWithin`, the depth that is left may show in what it does from caches that are not
sound. -/
def CompletesFrom
    (sound : Caches → Prop)
    (run : Nat → Calc α)
    (depth : Nat)
    (good : α → Prop) : Prop :=
  ∃ value, good value ∧ ∃ bound, ∀ deep ≥ depth, ∀ limit ≥ bound, ∀ caches, sound caches →
    ∃ after, sound after ∧ run deep limit ⟨.never, caches⟩ = (.ok value, ⟨.never, after⟩)

namespace Completes

/-- A calculation before a recursion. -/
theorem bindFrom
    {run : Calc α}
    {next : α → Nat → Calc β}
    {better : β → Prop}
    {depth : Nat}
    (first : Completes sound run good)
    (second : ∀ value, good value → CompletesFrom sound (next value) depth better) :
    CompletesFrom sound (fun deep => run >>= fun value => next value deep) depth better := by
  obtain ⟨value, holds, firstBound, runs⟩ := first
  obtain ⟨last, holdsLast, secondBound, goesOn⟩ := second value holds
  refine ⟨last, holdsLast, max firstBound secondBound,
    fun deep enough limit above caches held => ?_⟩
  obtain ⟨between, heldBetween, same⟩ := runs limit (by omega) caches held
  obtain ⟨after, heldAfter, ends⟩ := goesOn deep enough limit (by omega) between heldBetween
  exact ⟨after, heldAfter, (bind_of_ok same _).trans ends⟩

end Completes

namespace CompletesFrom

variable {run : Nat → Calc α} {depth : Nat}

/-- A level that calls no other one. -/
theorem leaf
    {last : Calc α}
    (unfolds : ∀ deep, run (deep + 1) = last)
    (completes : Completes sound last good) :
    CompletesFrom sound run 1 good := by
  obtain ⟨value, holds, bound, runs⟩ := completes
  refine ⟨value, holds, bound, fun deep enough => ?_⟩
  obtain ⟨fewer, rfl⟩ : ∃ fewer, deep = fewer + 1 := ⟨deep - 1, by omega⟩
  rw [unfolds]
  exact runs

/-- A level above another one. -/
theorem call
    {inner : Nat → Calc α}
    (unfolds : ∀ deep, run (deep + 1) = inner deep)
    (completes : CompletesFrom sound inner depth good) :
    CompletesFrom sound run (depth + 1) good := by
  obtain ⟨value, holds, bound, runs⟩ := completes
  refine ⟨value, holds, bound, fun deep enough => ?_⟩
  obtain ⟨fewer, rfl⟩ : ∃ fewer, deep = fewer + 1 := ⟨deep - 1, by omega⟩
  rw [unfolds]
  exact runs fewer (by omega)

/-- A recursion before a calculation. -/
theorem bind
    {next : α → Calc β}
    {better : β → Prop}
    (first : CompletesFrom sound run depth good)
    (second : ∀ value, good value → Completes sound (next value) better) :
    CompletesFrom sound (fun deep => run deep >>= next) depth better := by
  obtain ⟨value, holds, firstBound, runs⟩ := first
  obtain ⟨last, holdsLast, secondBound, goesOn⟩ := second value holds
  refine ⟨last, holdsLast, max firstBound secondBound,
    fun deep enough limit above caches held => ?_⟩
  obtain ⟨between, heldBetween, same⟩ := runs deep enough limit (by omega) caches held
  obtain ⟨after, heldAfter, ends⟩ := goesOn limit (by omega) between heldBetween
  exact ⟨after, heldAfter, (bind_of_ok same next).trans ends⟩

theorem deepen
    {deeper : Nat}
    (completes : CompletesFrom sound run depth good)
    (enough : depth ≤ deeper) :
    CompletesFrom sound run deeper good :=
  completes.imp fun _ found => found.imp_right fun ⟨bound, runs⟩ =>
    ⟨bound, fun deep above => runs deep (enough.trans above)⟩

/-- What a recursion gives is one value, at every depth. -/
theorem settle (completes : CompletesFrom sound run depth good) :
    ∃ value, good value ∧ CompletesFrom sound run depth (· = value) := by
  obtain ⟨value, holds, runs⟩ := completes
  exact ⟨value, holds, value, rfl, runs⟩

/-- With enough depth a run completes. -/
theorem completes
    (completes : CompletesFrom sound run depth good)
    {deep : Nat}
    (enough : depth ≤ deep) :
    Completes sound (run deep) good :=
  completes.imp fun _ found => found.imp_right fun ⟨bound, runs⟩ => ⟨bound, runs deep enough⟩

/-- A recursion that may go as deep as the limit says. -/
theorem withLimit (completes : CompletesFrom sound run depth good) :
    Completes sound (Run.withLimit run) good := by
  obtain ⟨value, holds, bound, runs⟩ := completes
  exact ⟨value, holds, max bound depth, fun limit above =>
    runs limit (by omega) limit (by omega)⟩

end CompletesFrom
end Run
end Reckoner
