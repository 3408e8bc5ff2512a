import Reckoner.Proofs.Evaluation.Steadiness

/-!
# Cached values

The table of factorials grows while it is used and may be left behind at any length.  Each of its
entries is what the recursion of the factorial gives, so that no length of it shows in an answer.
Other values are kept when they have been worked out once.  What is kept has been the result of the
calculation that would be made otherwise.
-/

namespace Reckoner
namespace Caches

/-! ## Factorials -/

/-- The factorial of a number by recursion, or the failure at which the recursion stops. -/
def factorialOf (kind : NumberKind) : Nat → Except Failure Number
  | 0 => .ok (.one kind)
  | 1 => .ok (.one kind)
  | number + 2 =>
      match factorialOf kind (number + 1) with
      | .error failure => .error failure
      | .ok last => last.mul (.ofInt kind (number + 2 : Nat))

/-- The recursion of the factorial never stops at a failure. -/
theorem exists_factorialOf (kind : NumberKind) (number : Nat) :
    ∃ value, factorialOf kind number = .ok value ∧ value.kind = kind := by
  match number with
  | 0 | 1 => exact ⟨.one kind, rfl, by cases kind <;> rfl⟩
  | number + 2 =>
      obtain ⟨last, known, rfl⟩ := exists_factorialOf kind (number + 1)
      rw [factorialOf, known]
      cases last with
      | fast last => exact ⟨_, rfl, rfl⟩
      | precise last => exact ⟨_, rfl, rfl⟩

/-- Every table of factorials has its first two entries, and all entries are factorials. -/
def HoldsFactorials (caches : Caches) : Prop :=
  ∀ kind, 2 ≤ (caches.factorialTable kind).size ∧
    ∀ index value, (caches.factorialTable kind)[index]? = some value →
      factorialOf kind index = .ok value

theorem holdsFactorials_empty : empty.HoldsFactorials := by
  intro kind
  have table : empty.factorialTable kind = #[.one kind, .one kind] := by
    cases kind <;> rfl
  rw [table]
  refine ⟨by simp, fun index value found => ?_⟩
  match index with
  | 0 | 1 =>
      obtain rfl : Number.one kind = value := by simpa using found
      rfl
  | index + 2 => simp at found

/-- Entries that belong behind a table of `start` entries. -/
def Follows (kind : NumberKind) (start : Nat) (fresh : Array Number) : Prop :=
  ∀ offset value, fresh[offset]? = some value → factorialOf kind (start + offset) = .ok value

theorem follows_empty (kind : NumberKind) (start : Nat) : Follows kind start #[] := by
  intro offset value found
  simp at found

theorem Follows.cons
    {kind : NumberKind}
    {start : Nat}
    {next : Number}
    {more : Array Number}
    (first : factorialOf kind start = .ok next)
    (later : Follows kind (start + 1) more) :
    Follows kind start (#[next] ++ more) := by
  intro offset value found
  cases offset with
  | zero =>
      obtain rfl : next = value := by simpa using found
      exact first
  | succ offset =>
      have entry := later offset value (by simpa [Array.getElem?_append] using found)
      rwa [Nat.add_right_comm] at entry

/-- A table to which the next factorials are appended holds factorials. -/
theorem HoldsFactorials.appendFactorials
    {caches : Caches}
    (holds : caches.HoldsFactorials)
    {kind : NumberKind}
    {fresh : Array Number}
    (continues : Follows kind (caches.factorialTable kind).size fresh) :
    (caches.appendFactorials kind (caches.factorialTable kind).size fresh).HoldsFactorials := by
  intro other
  obtain ⟨sizeKind, entriesKind⟩ := holds kind
  by_cases same : other = kind
  · subst same
    have grown : (caches.appendFactorials other (caches.factorialTable other).size
        fresh).factorialTable other = caches.factorialTable other ++ fresh := by
      have nonempty : (caches.factorialTable other ++ fresh).isEmpty = false := by
        rw [Array.isEmpty, Array.size_append]
        exact decide_eq_false (by omega)
      rw [factorialTable, Caches.appendFactorials]
      simp [nonempty]
    rw [grown]
    refine ⟨by rw [Array.size_append]; omega, fun index value found => ?_⟩
    rw [Array.getElem?_append] at found
    split at found
    next => exact entriesKind index value found
    next beyond =>
      have entry := continues (index - (caches.factorialTable other).size) value found
      rwa [Nat.add_sub_cancel' (by omega)] at entry
  · have untouched : (caches.appendFactorials kind (caches.factorialTable kind).size
        fresh).factorialTable other = caches.factorialTable other := by
      simp [factorialTable, Caches.appendFactorials, same]
    rw [untouched]
    exact holds other

/-- The entries that are worked out are factorials; the result is the factorial that was asked for,
unless the evaluation was cancelled on the way. -/
theorem extendFactorials_poll
    (kind : NumberKind)
    (limit count index : Nat)
    (last : Number)
    (fresh : Array Number)
    (machine : Machine)
    (known : factorialOf kind (index + 1) = .ok last) :
    ∃ outcome more cancellation,
      extendFactorials kind Calc.poll count (index + 2) last fresh limit machine =
        (.ok (outcome, fresh ++ more), ⟨cancellation, machine.caches⟩) ∧
      Follows kind (index + 2) more ∧
      (outcome = .error .cancelled ∨ outcome = factorialOf kind (index + 1 + count)) ∧
      (machine.cancellation = .never →
        cancellation = .never ∧ outcome = factorialOf kind (index + 1 + count)) := by
  induction count generalizing index last fresh machine with
  | zero =>
      refine ⟨.ok last, #[], machine.cancellation, ?_, follows_empty kind _, Or.inr known.symm, ?_⟩
      · rw [Array.append_empty]
        rfl
      · exact fun never => ⟨never, known.symm⟩
  | succ count hypothesis =>
      have polled := Calc.poll_eq limit machine
      cases cancelled : machine.cancellation.isCancelled with
      | true =>
          rw [if_pos cancelled] at polled
          refine ⟨.error .cancelled, #[], machine.cancellation.next, ?_, follows_empty kind _,
            Or.inl rfl, ?_⟩
          · rw [extendFactorials, Run.bind_of_ok polled, Array.append_empty]
            rfl
          · intro never
            rw [never] at cancelled
            cases cancelled
      | false =>
          rw [if_neg (by simp [cancelled])] at polled
          -- the check lets it go on, and the next entry comes before those of the hypothesis
          obtain ⟨next, entry, -⟩ := exists_factorialOf kind (index + 1 + 1)
          have product : last.mul (.ofInt kind (index + 2 : Nat)) = .ok next := by
            rw [← entry, factorialOf, known]
          obtain ⟨outcome, more, cancellation, runs, entries, ends, undisturbed⟩ :=
            hypothesis (index + 1) next (fresh.push next)
              ⟨machine.cancellation.next, machine.caches⟩ entry
          have total : index + 1 + (count + 1) = index + 1 + 1 + count := by omega
          refine ⟨outcome, #[next] ++ more, cancellation, ?_, .cons entry entries, ?_, ?_⟩
          · rw [extendFactorials, Run.bind_of_ok polled, ← Array.append_assoc,
              Array.append_singleton]
            dsimp only
            rw [product]
            exact runs
          · rwa [total]
          · intro never
            rw [total]
            refine undisturbed ?_
            rw [never]
            rfl

/-- A property of caches that says at least that the factorials are in order, and does not mind when
they grow. -/
structure GuardsFactorials (sound : Caches → Prop) : Prop where
  holds : ∀ caches, sound caches → caches.HoldsFactorials
  grows : ∀ caches kind start fresh, sound caches →
    (caches.appendFactorials kind start fresh).HoldsFactorials →
      sound (caches.appendFactorials kind start fresh)

/-- Asking for a factorial gives what the recursion gives, unless the evaluation is cancelled, and
leaves sound caches behind. -/
theorem factorial_poll
    {sound : Caches → Prop}
    (guards : GuardsFactorials sound)
    (kind : NumberKind)
    (number limit : Nat)
    (machine : Machine)
    (held : sound machine.caches) :
    ∃ outcome cancellation caches,
      factorial kind number Calc.poll limit machine = (.ok outcome, ⟨cancellation, caches⟩) ∧
      sound caches ∧
      (outcome = .error .cancelled ∨ outcome = factorialOf kind number) ∧
      (machine.cancellation = .never →
        cancellation = .never ∧ outcome = factorialOf kind number) := by
  have holds := guards.holds machine.caches held
  obtain ⟨size, entries⟩ := holds kind
  have got : (getThe Caches : Calc Caches) limit machine = (.ok machine.caches, machine) := rfl
  rw [factorial, Run.bind_of_ok got]
  cases found : (machine.caches.factorialTable kind)[number]? with
  | some known =>
      have value := entries number known found
      exact ⟨.ok known, machine.cancellation, machine.caches, rfl, held,
        Or.inr value.symm, fun never => ⟨never, value.symm⟩⟩
  | none =>
      have beyond : (machine.caches.factorialTable kind).size ≤ number := by simpa using found
      obtain ⟨index, length⟩ : ∃ index, (machine.caches.factorialTable kind).size = index + 2 :=
        ⟨(machine.caches.factorialTable kind).size - 2, by omega⟩
      obtain ⟨last, back⟩ : ∃ last, (machine.caches.factorialTable kind).back? = some last := by
        rw [Array.back?_eq_getElem?, length]
        exact ⟨_, Array.getElem?_eq_getElem (by omega)⟩
      have known : factorialOf kind (index + 1) = .ok last := by
        rw [Array.back?_eq_getElem?, length] at back
        exact entries (index + 1) last back
      obtain ⟨outcome, more, cancellation, runs, fresh, ends, undisturbed⟩ :=
        extendFactorials_poll kind limit (number + 1 - (index + 2)) index last #[] machine known
      have reached : index + 1 + (number + 1 - (index + 2)) = number := by omega
      rw [reached] at ends undisturbed
      rw [Array.empty_append] at runs
      have grown := guards.grows machine.caches kind (machine.caches.factorialTable kind).size more
        held (holds.appendFactorials (by rwa [length]))
      refine ⟨outcome, cancellation, _, ?_, grown, ends, undisturbed⟩
      simp only [back, Option.getD_some, length, Run.bind_of_ok runs]
      rfl

end Caches

/-- A factorial is answered alike from every table. -/
theorem steady_factorial
    {sound : Caches → Prop}
    (guards : Caches.GuardsFactorials sound)
    (kind : NumberKind)
    (number : Nat) :
    Run.Steady sound (Calc.factorial kind number) := by
  have settles (limit : Nat) (machine : Machine) (held : sound machine.caches) :
      ∃ outcome cancellation caches,
        Calc.factorial kind number limit machine =
          (Run.ofResult outcome : Calc Number) limit ⟨cancellation, caches⟩ ∧
        sound caches ∧
        (outcome = .error .cancelled ∨ outcome = Caches.factorialOf kind number) ∧
        (machine.cancellation = .never →
          cancellation = .never ∧ outcome = Caches.factorialOf kind number) := by
    obtain ⟨outcome, cancellation, caches, runs, heldAfter, ends, undisturbed⟩ :=
      Caches.factorial_poll guards kind number limit machine held
    exact ⟨outcome, cancellation, caches, Run.bind_of_ok runs _, heldAfter, ends, undisturbed⟩
  intro limit start held
  obtain ⟨outcome, cancellation, caches, runs, heldAfter, ends, _⟩ := settles limit start held
  simp only [runs]
  have final : Run.ofResult outcome limit (⟨cancellation, caches⟩ : Machine) =
      ((Run.ofResult outcome limit (⟨cancellation, caches⟩ : Machine)).1,
        ⟨cancellation, caches⟩) := by
    cases outcome <;> rfl
  rw [final]
  refine ⟨heldAfter, fun answers => ⟨0, fun _ _ longer _ other heldOther => ?_⟩⟩
  have reached : outcome = Caches.factorialOf kind number := by
    rcases ends with rfl | reached
    · exact absurd rfl answers.2
    · exact reached
  obtain ⟨again, _, after, runsAgain, heldAgain, _, undisturbed⟩ :=
    settles longer ⟨.never, other⟩ heldOther
  obtain ⟨rfl, reachedAgain⟩ := undisturbed rfl
  refine ⟨after, heldAgain, runsAgain.trans ?_⟩
  rw [reachedAgain, ← reached]
  cases outcome <;> rfl

namespace Run

/-! ## Remembered values -/

/-- A value that a calculation has given once, from caches that were in order. -/
def Obtains {α : Type} (sound : Caches → Prop) (compute : Calc α) (value : α) : Prop :=
  ∃ limit machine, sound machine.caches ∧ (compute limit machine).1 = .ok value

/-- The value that is kept, or else the value of a calculation, which is kept from then on. -/
def remember
    {α : Type}
    (kept : Caches → Option α)
    (store : α → Caches → Caches)
    (compute : Calc α) :
    Calc α := do
  match kept (← getThe Caches) with
  | some known => pure known
  | none =>
      let value ← compute
      modifyThe Caches (store value)
      pure value

variable {α : Type} {sound base : Caches → Prop} {kept : Caches → Option α}
  {store : α → Caches → Caches} {compute : Calc α}

/-- What a steady calculation has given once it gives whenever it is not cancelled and has time. -/
theorem Obtains.settles
    {value : α}
    (obtained : Obtains base compute value)
    (steady : Steady base compute) :
    ∃ bound, ∀ limit ≥ bound, ∀ caches, base caches → ∃ after, base after ∧
      compute limit ⟨.never, caches⟩ = (.ok value, ⟨.never, after⟩) := by
  obtain ⟨limit, machine, held, gives⟩ := obtained
  obtain ⟨_, settles⟩ := steady limit machine held
  simp only [gives] at settles
  obtain ⟨bound, settled⟩ := settles (isAnswer_ok value)
  exact ⟨bound, fun longer beyond caches heldCaches =>
    settled bound (Nat.le_refl bound) longer beyond caches heldCaches⟩

theorem remember_of_some
    {limit : Nat}
    {machine : Machine}
    {known : α}
    (present : kept machine.caches = some known) :
    remember kept store compute limit machine = (.ok known, machine) := by
  have got : (getThe Caches : Calc Caches) limit machine = (.ok machine.caches, machine) := rfl
  rw [remember, bind_of_ok got]
  simp only [present]
  rfl

theorem remember_of_none
    {limit : Nat}
    {machine : Machine}
    (missing : kept machine.caches = none) :
    remember kept store compute limit machine =
      match compute limit machine with
      | (.ok value, after) => (.ok value, { after with caches := store value after.caches })
      | (.error stop, after) => (.error stop, after) := by
  have got : (getThe Caches : Calc Caches) limit machine = (.ok machine.caches, machine) := rfl
  rw [remember, bind_of_ok got]
  simp only [missing]
  rcases ran : compute limit machine with ⟨_ | _, _⟩
  · rw [bind_of_error ran]
  · rw [bind_of_ok ran]
    rfl

/-- A value that is not kept yet is the one that the calculation gives. -/
theorem fst_remember_of_none
    {limit : Nat}
    {machine : Machine}
    (missing : kept machine.caches = none) :
    (remember kept store compute limit machine).1 = (compute limit machine).1 := by
  rw [remember_of_none missing]
  rcases compute limit machine with ⟨_ | _, _⟩
  · rfl
  · rfl

/-- A steady calculation does not give two values. -/
theorem Obtains.eq
    {value other : α}
    (obtained : Obtains base compute value)
    (obtainedOther : Obtains base compute other)
    (steady : Steady base compute) :
    value = other := by
  obtain ⟨bound, settled⟩ := obtained.settles steady
  obtain ⟨otherBound, otherSettled⟩ := obtainedOther.settles steady
  obtain ⟨_, machine, held, _⟩ := obtained
  obtain ⟨_, _, gives⟩ := settled (max bound otherBound) (by omega) machine.caches held
  obtain ⟨_, _, givesOther⟩ := otherSettled (max bound otherBound) (by omega) machine.caches held
  simpa using congrArg Prod.fst (gives.symm.trans givesOther)

/-- A steady calculation and what is kept of it: whatever caches in order keep has been its
result, and they stay in order when its result is stored. -/
structure Remembers
    (sound base : Caches → Prop)
    (kept : Caches → Option α)
    (store : α → Caches → Caches)
    (compute : Calc α) : Prop where
  steady : Steady base compute
  weaker : ∀ caches, sound caches → base caches
  recalls : ∀ caches value, sound caches → kept caches = some value → Obtains base compute value
  stores : ∀ caches value, sound caches → Obtains base compute value → sound (store value caches)

namespace Remembers

variable (remembers : Remembers sound base kept store compute)

include remembers

/-- What the calculation gives within a limit is answered within the same limit, whether it is
kept or not. -/
theorem settles
    {value : α}
    (obtained : Obtains base compute value)
    {bound : Nat}
    (gives : ∀ limit ≥ bound, ∀ caches, sound caches → ∃ after, sound after ∧
      compute limit ⟨.never, caches⟩ = (.ok value, ⟨.never, after⟩)) :
    ∀ limit ≥ bound, ∀ caches, sound caches → ∃ after, sound after ∧
      remember kept store compute limit ⟨.never, caches⟩ = (.ok value, ⟨.never, after⟩) := by
  intro limit beyond caches held
  cases here : kept caches with
  | some known =>
      obtain rfl : known = value :=
        (remembers.recalls caches known held here).eq obtained remembers.steady
      exact ⟨caches, held, remember_of_some here⟩
  | none =>
      obtain ⟨after, heldAfter, computes⟩ := gives limit beyond caches held
      refine ⟨store value after, remembers.stores after value heldAfter obtained, ?_⟩
      rw [remember_of_none here, computes]

theorem exists_settles
    (steady : Steady sound compute)
    {value : α}
    (obtained : Obtains base compute value) :
    ∃ bound, ∀ limit ≥ bound, ∀ caches, sound caches → ∃ after, sound after ∧
      remember kept store compute limit ⟨.never, caches⟩ = (.ok value, ⟨.never, after⟩) := by
  obtain ⟨bound, settled⟩ := obtained.settles remembers.steady
  refine ⟨bound, remembers.settles obtained fun limit beyond caches held => ?_⟩
  obtain ⟨after, _, computes⟩ := settled limit beyond caches (remembers.weaker caches held)
  have heldAfter := (steady limit ⟨.never, caches⟩ held).1
  simp only [computes] at heldAfter
  exact ⟨after, heldAfter, computes⟩

/-- Of a calculation that stops, however much time it has, nothing is kept. -/
theorem kept_eq_none
    {start final : Machine}
    {stop : Stop}
    (stops : Settles sound (fun _ => compute) start (.error stop) final)
    {caches : Caches}
    (held : sound caches) :
    kept caches = none := by
  rw [Option.eq_none_iff_forall_ne_some]
  intro known here
  obtain ⟨bound, settled⟩ := stops
  obtain ⟨otherBound, otherSettled⟩ :=
    (remembers.recalls caches known held here).settles remembers.steady
  obtain ⟨_, _, fails⟩ :=
    settled bound (Nat.le_refl bound) (max bound otherBound) (by omega) caches held
  obtain ⟨_, _, gives⟩ :=
    otherSettled (max bound otherBound) (by omega) caches (remembers.weaker caches held)
  cases congrArg Prod.fst (gives.symm.trans fails)

/-- A calculation with a steady result may keep it: it is steady as well. -/
theorem steady_remember (steady : Steady sound compute) :
    Steady sound (remember kept store compute) := by
  intro limit start held
  cases here : kept start.caches with
  | some known =>
      simp only [remember_of_some here]
      refine ⟨held, fun _ => ?_⟩
      obtain ⟨bound, given⟩ :=
        remembers.exists_settles steady (remembers.recalls start.caches known held here)
      exact ⟨bound, fun _ _ => given⟩
  | none =>
      obtain ⟨heldMiddle, settles⟩ := steady limit start held
      simp only [remember_of_none here]
      rcases ran : compute limit start with ⟨stop | value, middle⟩
      · simp only [ran] at heldMiddle settles
        refine ⟨heldMiddle, fun answers => ?_⟩
        obtain ⟨bound, settled⟩ := settles answers
        refine ⟨bound, fun deeper above longer beyond caches heldCaches => ?_⟩
        obtain ⟨after, heldAfter, fails⟩ := settled deeper above longer beyond caches heldCaches
        -- the calculation stops wherever it has time, so that no caches keep a value of it
        have missing := remembers.kept_eq_none ⟨bound, settled⟩ heldCaches
        dsimp only at fails
        refine ⟨after, heldAfter, (remember_of_none missing).trans ?_⟩
        rw [fails]
      · have obtained : Obtains base compute value :=
          ⟨limit, start, remembers.weaker start.caches held, by rw [ran]⟩
        simp only [ran] at heldMiddle
        refine ⟨remembers.stores middle.caches value heldMiddle obtained, fun _ => ?_⟩
        obtain ⟨bound, given⟩ := remembers.exists_settles steady obtained
        exact ⟨bound, fun _ _ => given⟩

end Remembers

end Run
end Reckoner
