import Mathlib.Data.List.Infix
import Mathlib.Data.Nat.Factorial.Basic
import Reckoner.Proofs.Evaluation.Caching

/-!
# Factorials under nested calls

Before each new entry of a table of factorials a check is asked whether to go on.  A check may
itself ask for factorials, so that the table may have grown when the entries of the outer call
are appended.  A diary stands next to the caches here and holds all that they have ever held;
whatever the checks do, each of these contents is a table of consecutive factorials that
continues the ones before.
-/

namespace Reckoner
namespace Caches

open scoped Nat

/-! ## The factorial as a number -/

/-- Only one is short and one among the natural numbers. -/
theorem isShortOne_ofInt (number : Nat) :
    (Decimal.ofInt number).isShortOne = decide (number = 1) := by
  rw [Bool.eq_iff_iff]
  simp [Decimal.ofInt, Decimal.isShortOne]

/-- In decimals the recursion gives the factorial itself. -/
theorem factorialOf_precise (number : Nat) :
    factorialOf .precise number = .ok (.ofInt .precise (number ! : Nat)) := by
  match number with
  | 0 | 1 => rfl
  | 2 => decide +kernel
  | number + 3 =>
      have least : 2 ≤ (number + 2)! := (Nat.self_le_factorial (number + 2)).trans' (by omega)
      have notOne (other : Nat) (beyond : 2 ≤ other) :
          (Decimal.ofInt other).isShortOne = false := by
        rw [isShortOne_ofInt]
        exact decide_eq_false (by omega)
      have product : (Decimal.ofInt ((number + 2)! : Nat)).mul (.ofInt (number + 3 : Nat)) =
          .ofInt ((number + 3)! : Nat) := by
        have step : (number + 3)! = (number + 2)! * (number + 3) := by
          rw [Nat.factorial_succ, Nat.mul_comm]
        rw [Decimal.mul, notOne _ least, notOne _ (by omega), step]
        simp [Decimal.ofInt]
      rw [factorialOf, factorialOf_precise (number + 2)]
      exact congrArg (fun value => Except.ok (Number.precise value)) product

/-! ## Tables -/

/-- The entries that a longer table still lacks. -/
theorem Follows.extract
    {kind : NumberKind}
    {start : Nat}
    {fresh : Array Number}
    (follows : Follows kind start fresh)
    (known : Nat) :
    Follows kind (start + known) (fresh.extract known fresh.size) := by
  intro offset value found
  rw [Nat.add_assoc]
  refine follows (known + offset) value ?_
  rw [Array.getElem?_extract] at found
  split at found
  · exact found
  · cases found

theorem factorialTable_eq_of_pos
    {caches : Caches}
    {kind : NumberKind}
    {table : Array Number}
    (stored : caches.factorials.get kind = table)
    (positive : 0 < table.size) :
    caches.factorialTable kind = table := by
  rw [factorialTable, stored]
  exact if_neg (by simpa [Array.isEmpty, Nat.pos_iff_ne_zero] using positive)

/-- The factorial of zero is always known. -/
theorem factorialTable_size_pos (caches : Caches) (kind : NumberKind) :
    0 < (caches.factorialTable kind).size := by
  unfold factorialTable
  dsimp only
  split
  next => simp
  next nonempty => simpa [Array.isEmpty, Nat.pos_iff_ne_zero] using nonempty

/-- What becomes of the tables when factorials of one kind are appended. -/
theorem factorialTable_appendFactorials
    (caches : Caches)
    (kind other : NumberKind)
    (start : Nat)
    (fresh : Array Number) :
    (caches.appendFactorials kind start fresh).factorialTable other =
      if other = kind ∧ start ≤ (caches.factorialTable other).size then
        caches.factorialTable other ++
          fresh.extract ((caches.factorialTable other).size - start) fresh.size
      else caches.factorialTable other := by
  have positive := caches.factorialTable_size_pos other
  by_cases same : other = kind
  · subst same
    by_cases grown : start ≤ (caches.factorialTable other).size
    · rw [if_pos ⟨rfl, grown⟩]
      refine factorialTable_eq_of_pos ?_ (by rw [Array.size_append]; omega)
      rw [appendFactorials, PerKind.get_set, if_pos rfl, if_pos grown]
    · rw [if_neg (fun both => grown both.2)]
      refine factorialTable_eq_of_pos ?_ positive
      rw [appendFactorials, PerKind.get_set, if_pos rfl, if_neg grown]
  · rw [if_neg (fun both => same both.1)]
    simp [factorialTable, appendFactorials, same]

/-- Appending what the table has not got by now, to a table that may have grown since the entries
were begun. -/
theorem HoldsFactorials.merge
    {caches : Caches}
    (holds : caches.HoldsFactorials)
    {kind : NumberKind}
    {start : Nat}
    {fresh : Array Number}
    (grown : start ≤ (caches.factorialTable kind).size)
    (follows : Follows kind start fresh) :
    (caches.appendFactorials kind start fresh).HoldsFactorials := by
  have lacking := follows.extract ((caches.factorialTable kind).size - start)
  rw [Nat.add_sub_cancel' grown] at lacking
  have appended : caches.appendFactorials kind start fresh =
      caches.appendFactorials kind (caches.factorialTable kind).size
        (fresh.extract ((caches.factorialTable kind).size - start) fresh.size) := by
    rw [Caches.appendFactorials, Caches.appendFactorials, if_pos grown, if_pos (Nat.le_refl _),
      Nat.sub_self, Array.extract_size]
  rw [appended]
  exact holds.appendFactorials lacking

/-- Later contents have all the factorials of earlier ones, each at its place. -/
def Continues (earlier later : Caches) : Prop :=
  ∀ kind, (earlier.factorialTable kind).toList <+: (later.factorialTable kind).toList

namespace Continues

theorem refl (caches : Caches) : caches.Continues caches :=
  fun _ => List.prefix_refl _

theorem trans
    {first second third : Caches}
    (earlier : first.Continues second)
    (later : second.Continues third) :
    first.Continues third :=
  fun kind => (earlier kind).trans (later kind)

/-- What continues a table is not shorter. -/
theorem size_le
    {earlier later : Caches}
    (continues : earlier.Continues later)
    (kind : NumberKind) :
    (earlier.factorialTable kind).size ≤ (later.factorialTable kind).size := by
  simpa using (continues kind).length_le

/-- Caches with the same factorials continue one another. -/
theorem of_factorials_eq
    {earlier later : Caches}
    (same : later.factorials = earlier.factorials) :
    earlier.Continues later := by
  intro kind
  rw [factorialTable, factorialTable, same]

/-- New factorials go behind the ones that are kept. -/
theorem appendFactorials
    (caches : Caches)
    (kind : NumberKind)
    (start : Nat)
    (fresh : Array Number) :
    caches.Continues (caches.appendFactorials kind start fresh) := by
  intro other
  rw [factorialTable_appendFactorials]
  split
  · rw [Array.toList_append]
    exact List.prefix_append _ _
  · exact List.prefix_refl _

end Continues

/-- The entries of a call that was begun at `start` are in place after they have been appended. -/
theorem size_appendFactorials
    {caches : Caches}
    {kind : NumberKind}
    {start : Nat}
    (grown : start ≤ (caches.factorialTable kind).size)
    (fresh : Array Number) :
    start + fresh.size ≤ ((caches.appendFactorials kind start fresh).factorialTable kind).size := by
  rw [factorialTable_appendFactorials, if_pos ⟨rfl, grown⟩, Array.size_append, Array.size_extract]
  omega

/-! ## Callers -/

/-- What a caller of the caches works on: a state of its own, the caches, and what the caches
have held before, the latest contents first. -/
structure Diary (σ : Type) where
  own : σ
  caches : Caches
  past : List Caches

/-- A program that works on the caches and a state of its own. -/
def Caller (σ α : Type) : Type :=
  StateM (Diary σ) α

variable {σ α β : Type}

namespace Diary

/-- The diary before anything has been worked out. -/
def fresh (own : σ) : Diary σ :=
  ⟨own, .empty, []⟩

/-- Give the caches new contents. -/
def store (diary : Diary σ) (caches : Caches) : Diary σ :=
  { diary with caches, past := diary.caches :: diary.past }

end Diary

instance : Monad (Caller σ) :=
  inferInstanceAs (Monad (StateM (Diary σ)))

theorem bind_apply (first : Caller σ α) (next : α → Caller σ β) (diary : Diary σ) :
    (first >>= next) diary = next (first diary).1 (first diary).2 :=
  rfl

instance : MonadStateOf Caches (Caller σ) where
  get := fun diary => (diary.caches, diary)
  set caches := fun diary => ((), diary.store caches)
  modifyGet change := fun diary => ((change diary.caches).1, diary.store (change diary.caches).2)

theorem getThe_apply (diary : Diary σ) :
    (getThe Caches : Caller σ Caches) diary = (diary.caches, diary) :=
  rfl

/-- The diary after a check has passed a number of times in a row, if it does. -/
def passed (check : Caller σ (Except Failure Unit)) : Nat → Diary σ → Option (Diary σ)
  | 0, diary => some diary
  | count + 1, diary =>
      match check diary with
      | (.ok _, after) => passed check count after
      | (.error _, _) => none

/-! ## One call -/

variable (check : Caller σ (Except Failure Unit)) (kind : NumberKind)

/-- New entries are worked out until all are there or the check fails. -/
theorem extendFactorials_cases
    (count index : Nat)
    (last : Number)
    (fresh : Array Number)
    (diary : Diary σ)
    (known : factorialOf kind (index + 1) = .ok last) :
    (∃ value more after,
      passed check count diary = some after ∧
      extendFactorials kind check count (index + 2) last fresh diary =
        ((.ok value, fresh ++ more), after) ∧
      factorialOf kind (index + 1 + count) = .ok value ∧
      more.size = count ∧
      Follows kind (index + 2) more) ∨
    (∃ passes more middle failure after,
      passes < count ∧
      passed check passes diary = some middle ∧
      check middle = (.error failure, after) ∧
      extendFactorials kind check count (index + 2) last fresh diary =
        ((.error failure, fresh ++ more), after) ∧
      more.size = passes ∧
      Follows kind (index + 2) more) := by
  induction count generalizing index last fresh diary with
  | zero =>
      refine .inl ⟨last, #[], diary, rfl, ?_, known, rfl, follows_empty kind _⟩
      rw [Array.append_empty]
      rfl
  | succ count hypothesis =>
      rcases checked : check diary with ⟨failure | passes, after⟩
      · refine .inr ⟨0, #[], diary, failure, after, Nat.succ_pos count, rfl, checked, ?_, rfl,
          follows_empty kind _⟩
        rw [extendFactorials, bind_apply, checked, Array.append_empty]
        rfl
      · obtain ⟨next, entry, -⟩ := exists_factorialOf kind (index + 1 + 1)
        have product : last.mul (.ofInt kind (index + 2 : Nat)) = .ok next := by
          rw [← entry, factorialOf, known]
        have run : extendFactorials kind check (count + 1) (index + 2) last fresh diary =
            extendFactorials kind check count (index + 1 + 2) next (fresh.push next) after := by
          rw [extendFactorials, bind_apply, checked]
          dsimp only
          rw [product]
        have passes (more : Nat) : passed check (more + 1) diary = passed check more after := by
          rw [passed, checked]
        have joined (more : Array Number) :
            fresh.push next ++ more = fresh ++ (#[next] ++ more) := by
          rw [← Array.append_assoc, Array.append_singleton]
        rcases hypothesis (index + 1) next (fresh.push next) after entry with
          ⟨value, more, final, allPassed, ends, result, size, follows⟩ |
          ⟨count', more, middle, failure, final, fewer, allPassed, fails, ends, size, follows⟩
        · refine .inl ⟨value, #[next] ++ more, final, ?_, ?_, ?_, ?_, .cons entry follows⟩
          · rw [passes, allPassed]
          · rw [run, ends, joined]
          · rwa [Nat.add_right_comm (index + 1)] at result
          · simp [size, Nat.add_comm]
        · refine .inr ⟨count' + 1, #[next] ++ more, middle, failure, final, by omega, ?_, fails, ?_,
            ?_, .cons entry follows⟩
          · rw [passes, allPassed]
          · rw [run, ends, joined]
          · simp [size, Nat.add_comm]

variable {kind}

/-- A factorial that is known is looked up, and nothing else happens. -/
theorem factorial_of_known
    {number : Nat}
    {known : Number}
    {diary : Diary σ}
    (found : (diary.caches.factorialTable kind)[number]? = some known) :
    factorial kind number check diary = (.ok known, diary) := by
  simp only [factorial, bind_apply, getThe_apply, found]
  rfl

theorem factorial_of_unknown
    {number : Nat}
    {diary : Diary σ}
    (unknown : (diary.caches.factorialTable kind)[number]? = none)
    {outcome : Except Failure Number}
    {more : Array Number}
    {after : Diary σ}
    (ends : extendFactorials kind check (number + 1 - (diary.caches.factorialTable kind).size)
      (diary.caches.factorialTable kind).size
      ((diary.caches.factorialTable kind).back?.getD (.one kind)) #[] diary =
        ((outcome, more), after)) :
    factorial kind number check diary =
      (outcome,
        after.store
          (after.caches.appendFactorials kind (diary.caches.factorialTable kind).size more)) := by
  simp only [factorial, bind_apply, getThe_apply, unknown, ends]
  rfl

variable (kind)

/-- A call gives what is known, or appends what has been worked out before all checks have passed
or one has failed. -/
theorem factorial_cases
    (number : Nat)
    (diary : Diary σ)
    (holds : diary.caches.HoldsFactorials) :
    let start := (diary.caches.factorialTable kind).size
    (∃ value, number < start ∧ factorialOf kind number = .ok value ∧
      factorial kind number check diary = (.ok value, diary)) ∨
    (∃ value more after,
      start ≤ number ∧
      passed check (number + 1 - start) diary = some after ∧
      factorialOf kind number = .ok value ∧
      Follows kind start more ∧
      factorial kind number check diary =
        (.ok value, after.store (after.caches.appendFactorials kind start more))) ∨
    (∃ passes more middle failure after,
      start + passes ≤ number ∧
      passed check passes diary = some middle ∧
      check middle = (.error failure, after) ∧
      more.size = passes ∧
      Follows kind start more ∧
      factorial kind number check diary =
        (.error failure, after.store (after.caches.appendFactorials kind start more))) := by
  intro start
  obtain ⟨two, entries⟩ := holds kind
  cases found : (diary.caches.factorialTable kind)[number]? with
  | some known =>
      have within : number < start := (Array.getElem?_eq_some_iff.1 found).1
      exact .inl ⟨known, within, entries number known found, factorial_of_known check found⟩
  | none =>
      have beyond : start ≤ number := by simpa using found
      obtain ⟨index, length⟩ : ∃ index, start = index + 2 := ⟨start - 2, by omega⟩
      obtain ⟨last, back⟩ : ∃ last, (diary.caches.factorialTable kind)[index + 1]? = some last :=
        ⟨_, Array.getElem?_eq_getElem (by omega)⟩
      have final : (diary.caches.factorialTable kind).back?.getD (.one kind) = last := by
        rw [Array.back?_eq_getElem?, show (diary.caches.factorialTable kind).size - 1 = index + 1 by
          omega, back, Option.getD_some]
      have run {outcome : Except Failure Number} {more : Array Number} {after : Diary σ}
          (ends : extendFactorials kind check (number + 1 - (index + 2)) (index + 2) last
            #[] diary =
            ((outcome, #[] ++ more), after)) :
          factorial kind number check diary =
            (outcome, after.store (after.caches.appendFactorials kind start more)) := by
        refine factorial_of_unknown check found ?_
        rw [final, show (diary.caches.factorialTable kind).size = index + 2 from length, ends,
          Array.empty_append]
      have reached : index + 1 + (number + 1 - (index + 2)) = number := by omega
      rcases extendFactorials_cases check kind (number + 1 - (index + 2)) index last #[] diary
          (entries (index + 1) last back) with
        ⟨value, more, after, allPassed, ends, result, -, follows⟩ |
        ⟨passes, more, middle, failure, after, fewer, allPassed, fails, ends, size, follows⟩
      · refine .inr (.inl ⟨value, more, after, beyond, ?_, ?_, ?_, ?_⟩)
        · rwa [length]
        · rwa [reached] at result
        · rwa [length]
        · exact run ends
      · refine .inr (.inr ⟨passes, more, middle, failure, after, by omega, allPassed, fails, size,
          ?_, run ends⟩)
        rwa [length]

/-! ## All that the caches have held -/

/-- The caches have held tables of factorials only, each of them a continuation of those before. -/
structure Diary.InOrder (diary : Diary σ) : Prop where
  holds : ∀ caches ∈ diary.caches :: diary.past, caches.HoldsFactorials
  grows : (diary.caches :: diary.past).Pairwise (fun later earlier => earlier.Continues later)

namespace Diary

theorem inOrder_fresh (own : σ) : (fresh own).InOrder where
  holds caches among := by
    obtain rfl : caches = .empty := by simpa [fresh] using among
    exact holdsFactorials_empty
  grows := List.pairwise_singleton _ _

/-- A store that continues the last one keeps the order. -/
theorem InOrder.store
    {diary : Diary σ}
    (inOrder : diary.InOrder)
    {caches : Caches}
    (holds : caches.HoldsFactorials)
    (continues : diary.caches.Continues caches) :
    (diary.store caches).InOrder where
  holds := List.forall_mem_cons.2 ⟨holds, inOrder.holds⟩
  grows := by
    refine List.pairwise_cons.2 ⟨fun earlier among => ?_, inOrder.grows⟩
    rcases List.mem_cons.1 among with rfl | before
    · exact continues
    · exact ((List.pairwise_cons.1 inOrder.grows).1 earlier before).trans continues

/-- What a program may do to a diary in order: leave it in order, the caches having grown at
most. -/
def LeadsTo (before after : Diary σ) : Prop :=
  before.InOrder → after.InOrder ∧ before.caches.Continues after.caches

namespace LeadsTo

theorem refl (diary : Diary σ) : diary.LeadsTo diary :=
  fun inOrder => ⟨inOrder, .refl _⟩

theorem trans
    {first second third : Diary σ}
    (earlier : first.LeadsTo second)
    (later : second.LeadsTo third) :
    first.LeadsTo third := by
  intro inOrder
  obtain ⟨between, grown⟩ := earlier inOrder
  obtain ⟨final, grownAgain⟩ := later between
  exact ⟨final, grown.trans grownAgain⟩

end LeadsTo
end Diary

variable {check kind}

/-- Passed checks lead from diary to diary as each of them does. -/
theorem leadsTo_of_passed
    (leads : ∀ diary : Diary σ, diary.LeadsTo (check diary).2)
    {count : Nat}
    {diary after : Diary σ}
    (allPassed : passed check count diary = some after) :
    diary.LeadsTo after := by
  induction count generalizing diary with
  | zero =>
      obtain rfl := Option.some.inj allPassed
      exact .refl diary
  | succ count hypothesis =>
      have first := leads diary
      rcases checked : check diary with ⟨failure | passes, between⟩
      · simp [passed, checked] at allPassed
      · rw [passed, checked] at allPassed
        rw [checked] at first
        exact first.trans (hypothesis allPassed)

/-- The merge at the end of a call keeps the caches in order, however far the table has grown. -/
theorem leadsTo_merge
    {diary after : Diary σ}
    (leads : diary.LeadsTo after)
    {more : Array Number}
    (follows : Follows kind (diary.caches.factorialTable kind).size more) :
    diary.LeadsTo (after.store
      (after.caches.appendFactorials kind (diary.caches.factorialTable kind).size more)) := by
  intro inOrder
  obtain ⟨between, grown⟩ := leads inOrder
  have merged := (between.holds after.caches List.mem_cons_self).merge (grown.size_le kind) follows
  have appended := Continues.appendFactorials after.caches kind
    (diary.caches.factorialTable kind).size more
  exact ⟨between.store merged appended, grown.trans appended⟩

/-- A factorial leads on to a diary with more pages. -/
theorem leadsTo_factorial
    (leads : ∀ diary : Diary σ, diary.LeadsTo (check diary).2)
    (number : Nat)
    (diary : Diary σ) :
    diary.LeadsTo (factorial kind number check diary).2 := by
  intro inOrder
  rcases factorial_cases check kind number diary
    (inOrder.holds diary.caches List.mem_cons_self) with
    ⟨_, -, -, ends⟩ | ⟨_, more, after, -, allPassed, -, follows, ends⟩ |
    ⟨_, more, middle, _, after, -, allPassed, fails, -, follows, ends⟩
  · rw [ends]
    exact ⟨inOrder, .refl _⟩
  · rw [ends]
    exact leadsTo_merge (leadsTo_of_passed leads allPassed) follows inOrder
  · have last := leads middle
    rw [fails] at last
    rw [ends]
    exact leadsTo_merge ((leadsTo_of_passed leads allPassed).trans last) follows inOrder

/-- A call that succeeds gives the factorial. -/
theorem factorialOf_of_factorial
    {number : Nat}
    {diary : Diary σ}
    (holds : diary.caches.HoldsFactorials)
    {value : Number}
    (succeeds : (factorial kind number check diary).1 = .ok value) :
    factorialOf kind number = .ok value := by
  rcases factorial_cases check kind number diary holds with
    ⟨known, -, result, ends⟩ | ⟨known, _, _, -, -, result, -, ends⟩ |
    ⟨_, _, _, _, _, -, -, -, -, -, ends⟩
  · rw [ends] at succeeds
    exact result.trans succeeds
  · rw [ends] at succeeds
    exact result.trans succeeds
  · rw [ends] at succeeds
    cases succeeds

/-- A call with a check that never fails succeeds. -/
theorem factorial_of_passes
    {number : Nat}
    {diary : Diary σ}
    (holds : diary.caches.HoldsFactorials)
    (passes : ∀ between failure, (check between).1 ≠ .error failure) :
    (factorial kind number check diary).1 = factorialOf kind number := by
  rcases factorial_cases check kind number diary holds with
    ⟨_, -, result, ends⟩ | ⟨_, _, _, -, -, result, -, ends⟩ |
    ⟨_, _, middle, failure, _, -, -, fails, -, -, -⟩
  · rw [ends, result]
  · rw [ends, result]
  · exact absurd (by rw [fails]) (passes middle failure)

/-- A check that fails after a number of passes fails nowhere else. -/
theorem passed_le_of_fails
    {passes more : Nat}
    {diary middle final : Diary σ}
    {failure : Failure}
    (allPassed : passed check passes diary = some middle)
    (fails : (check middle).1 = .error failure)
    (furtherPassed : passed check more diary = some final) :
    more ≤ passes := by
  induction passes generalizing more diary with
  | zero =>
      obtain rfl := Option.some.inj allPassed
      cases more with
      | zero => exact Nat.le_refl 0
      | succ more =>
          rcases checked : check diary with ⟨_ | _, between⟩
          · simp [passed, checked] at furtherPassed
          · rw [checked] at fails
            cases fails
  | succ passes hypothesis =>
      cases more with
      | zero => exact Nat.zero_le _
      | succ more =>
          rcases checked : check diary with ⟨_ | _, between⟩
          · simp [passed, checked] at allPassed
          · rw [passed, checked] at allPassed furtherPassed
            exact Nat.succ_le_succ (hypothesis allPassed furtherPassed)

/-- A call whose check fails ends with the failure, and with an entry for each pass before it. -/
theorem factorial_of_fails
    (leads : ∀ diary : Diary σ, diary.LeadsTo (check diary).2)
    {number passes : Nat}
    {diary middle : Diary σ}
    {failure : Failure}
    (inOrder : diary.InOrder)
    (room : (diary.caches.factorialTable kind).size + passes ≤ number)
    (allPassed : passed check passes diary = some middle)
    (fails : (check middle).1 = .error failure) :
    (factorial kind number check diary).1 = .error failure ∧
    (diary.caches.factorialTable kind).size + passes ≤
      ((factorial kind number check diary).2.caches.factorialTable kind).size := by
  rcases factorial_cases check kind number diary
    (inOrder.holds diary.caches List.mem_cons_self) with
    ⟨_, within, -, -⟩ | ⟨_, _, _, -, furtherPassed, -, -, -⟩ |
    ⟨others, more, between, failureThere, after, _, othersPassed, failsThere, size, -, ends⟩
  · omega
  · have few := passed_le_of_fails allPassed fails furtherPassed
    omega
  · have failsAgain : (check between).1 = .error failureThere := by rw [failsThere]
    obtain rfl : others = passes := Nat.le_antisymm
      (passed_le_of_fails allPassed fails othersPassed)
      (passed_le_of_fails othersPassed failsAgain allPassed)
    obtain rfl : between = middle := Option.some.inj (othersPassed.symm.trans allPassed)
    obtain rfl : failureThere = failure := Except.error.inj (failsAgain.symm.trans fails)
    have last := leads between
    rw [failsThere] at last
    have grown := (((leadsTo_of_passed leads allPassed).trans last) inOrder).2.size_le kind
    rw [ends]
    refine ⟨rfl, ?_⟩
    have placed := size_appendFactorials grown more
    rwa [size] at placed

/-! ## Requests -/

/-- A program that comes to the factorials by asking for them only.  The check of each call is again
such a program, and what is asked for may depend on the answers to earlier calls. -/
inductive Request (σ : Type) : Type → Type 1
  /-- Anything that leaves the factorials as they are. -/
  | aside {α : Type} (step : σ → Caches → α × σ × Caches)
      (leaves : ∀ own caches, (step own caches).2.2.factorials = caches.factorials) :
      Request σ α
  | bind {α β : Type} (first : Request σ α) (next : α → Request σ β) : Request σ β
  | factorial (kind : NumberKind) (number : Nat) (check : Request σ (Except Failure Unit)) :
      Request σ (Except Failure Number)

/-- A call that is about to be made. -/
structure Call (σ : Type) where
  kind : NumberKind
  number : Nat
  check : Request σ (Except Failure Unit)
  before : Diary σ

namespace Request

/-- What a program does. -/
def run : {α : Type} → Request σ α → Caller σ α
  | _, .aside step _ => fun diary =>
      match step diary.own diary.caches with
      | (value, own, caches) => (value, { diary.store caches with own })
  | _, .bind first next => first.run >>= fun value => (next value).run
  | _, .factorial kind number check => Caches.factorial kind number check.run

/-- A program makes a call, itself or in a check of another one. -/
inductive Makes : {α : Type} → Request σ α → Diary σ → Call σ → Prop
  | call (kind : NumberKind) (number : Nat) (check : Request σ (Except Failure Unit))
      (diary : Diary σ) :
      Makes (.factorial kind number check) diary ⟨kind, number, check, diary⟩
  | check {kind : NumberKind} {number passes : Nat} {check : Request σ (Except Failure Unit)}
      {diary middle : Diary σ} {call : Call σ}
      (room : (diary.caches.factorialTable kind).size + passes ≤ number)
      (allPassed : passed check.run passes diary = some middle)
      (makes : Makes check middle call) :
      Makes (.factorial kind number check) diary call
  | first {α β : Type} {first : Request σ α} {next : α → Request σ β} {diary : Diary σ}
      {call : Call σ}
      (makes : Makes first diary call) :
      Makes (.bind first next) diary call
  | next {α β : Type} {first : Request σ α} {next : α → Request σ β} {diary : Diary σ}
      {call : Call σ}
      (makes : Makes (next (first.run diary).1) (first.run diary).2 call) :
      Makes (.bind first next) diary call

/-- Whatever comes to the factorials by asking for them only keeps a diary in order. -/
theorem leadsTo (request : Request σ α) (diary : Diary σ) :
    diary.LeadsTo (request.run diary).2 := by
  induction request generalizing diary with
  | aside step leaves =>
      intro inOrder
      have same := leaves diary.own diary.caches
      have continues := Continues.of_factorials_eq same
      have holds : (step diary.own diary.caches).2.2.HoldsFactorials := by
        intro kind
        rw [factorialTable, same]
        exact inOrder.holds diary.caches List.mem_cons_self kind
      have stored := inOrder.store holds continues
      exact ⟨⟨stored.holds, stored.grows⟩, continues⟩
  | bind first next leadsFirst leadsNext =>
      rw [run, bind_apply]
      exact (leadsFirst diary).trans (leadsNext _ _)
  | factorial kind number check leads => exact leadsTo_factorial leads number diary

/-- A call is made with the diary in order, if the program has started so. -/
theorem Makes.inOrder
    {request : Request σ α}
    {diary : Diary σ}
    {call : Call σ}
    (makes : request.Makes diary call)
    (inOrder : diary.InOrder) :
    call.before.InOrder := by
  induction makes with
  | call => exact inOrder
  | check room allPassed _ hypothesis =>
      exact hypothesis (leadsTo_of_passed (leadsTo _) allPassed inOrder).1
  | first _ hypothesis => exact hypothesis inOrder
  | next _ hypothesis => exact hypothesis (leadsTo _ _ inOrder).1

end Request

/-- Calls for factorials with checks that may call for factorials themselves, from caches in
which nothing has been worked out.  All that the caches ever hold are tables of consecutive
factorials, which only grow.  A call that succeeds gives what it would give at first, which is
the factorial itself in decimals, and a call whose check fails after a number of passes ends with
that failure, with as many new entries in place. -/
theorem factorial_reentrant (client : Request σ α) (own : σ) :
    (client.run (.fresh own)).2.InOrder ∧
    ∀ call, client.Makes (.fresh own) call →
      let called := factorial call.kind call.number call.check.run call.before
      called.2.InOrder ∧
      (∀ value, called.1 = .ok value →
        factorialOf call.kind call.number = .ok value ∧
        (∀ check other, (∀ between failure, (Request.run check between).1 ≠ .error failure) →
          (factorial call.kind call.number check.run (Diary.fresh (other : σ))).1 = .ok value) ∧
        (call.kind = .precise → value = .ofInt .precise (call.number ! : Nat))) ∧
      (∀ passes middle failure,
        (call.before.caches.factorialTable call.kind).size + passes ≤ call.number →
        passed call.check.run passes call.before = some middle →
        (call.check.run middle).1 = .error failure →
        called.1 = .error failure ∧
        (call.before.caches.factorialTable call.kind).size + passes ≤
          (called.2.caches.factorialTable call.kind).size) := by
  have nothing (other : σ) : (Diary.fresh other).caches.HoldsFactorials := holdsFactorials_empty
  refine ⟨(client.leadsTo _ (Diary.inOrder_fresh own)).1, ?_⟩
  rintro ⟨kind, number, check, before⟩ makes
  have inOrder : before.InOrder := makes.inOrder (Diary.inOrder_fresh own)
  refine ⟨(leadsTo_factorial check.leadsTo number before inOrder).1, fun value succeeds => ?_,
    fun passes middle failure room allPassed fails =>
      factorial_of_fails check.leadsTo inOrder room allPassed fails⟩
  have result := factorialOf_of_factorial
    (inOrder.holds before.caches List.mem_cons_self) succeeds
  refine ⟨result, fun patient other passes => ?_, ?_⟩
  · rw [factorial_of_passes (nothing other) passes, result]
  · rintro rfl
    rw [factorialOf_precise] at result
    exact (Except.ok.inj result).symm

/-- A check that asks for the factorial of three and fails from its third run on. -/
def Request.impatient : Request Nat (Except Failure Unit) :=
  .bind
    (.factorial .precise 3 (.aside (fun own caches => (.ok (), own, caches)) fun _ _ => rfl))
    fun _ => .aside
      (fun own caches => (if own < 2 then .ok () else .error .cancelled, own + 1, caches))
      fun _ _ => rfl

/-- A client that gives up in the middle leaves the factorials that its own calls have kept. -/
theorem factorial_reentrant_impatient :
    let client : Request Nat (Except Failure Number) := .factorial .precise 6 .impatient
    (client.run (.fresh 0)).1 = .error .cancelled ∧
      4 ≤ ((client.run (.fresh 0)).2.caches.factorialTable .precise).size := by
  intro client
  have third : (passed Request.impatient.run 2 (.fresh 0)).map
      (fun middle => (Request.impatient.run middle).1) = some (.error .cancelled) := by
    decide +kernel
  obtain ⟨middle, allPassed, fails⟩ := Option.map_eq_some_iff.1 third
  have room : ((Diary.fresh 0).caches.factorialTable .precise).size + 2 ≤ 6 := by decide +kernel
  obtain ⟨-, -, stops⟩ := (factorial_reentrant client 0).2
    ⟨.precise, 6, .impatient, .fresh 0⟩ (.call .precise 6 .impatient (.fresh 0))
  exact stops 2 middle .cancelled room allPassed fails

-- what the two passes give has been appended by the inner calls
example :
    (factorial .precise 6 Request.impatient.run (.fresh 0)).2.caches.factorials.precise =
      #[.ofInt .precise 1, .ofInt .precise 1, .ofInt .precise 2, .ofInt .precise 6] := by
  decide +kernel

end Caches
end Reckoner
