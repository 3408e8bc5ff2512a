import Reckoner.Evaluation.Registry
import Reckoner.Proofs.Evaluation.Preservation

/-!
# Calculations in one representation

A calculation stays in a representation if all numbers that it comes to are of this
representation: it never brings numbers of two representations together, never asks for a
conversion, and reads no text that is no number.  What it finds in the caches must be kept under
the representation that it is of.

Whether data are of a representation is read off their type, field by field.  So each way to build
calculations has one rule, and a calculation stays in a representation because its parts do.
-/

namespace Reckoner

open Run

/-! ## Data -/

/-- A failure other than that of a promotion. -/
def Failure.IsLocal (failure : Failure) : Prop :=
  failure.category ≠ .promotion

@[simp] theorem Failure.isLocal_iff {failure : Failure} :
    failure.IsLocal ↔ (∀ source target, failure ≠ .noPromotionPath source target) ∧
      ∀ first second, failure ≠ .mixedRepresentations first second := by
  cases failure <;> simp [IsLocal, category]

/-- Failures of the reduction itself have nothing to do with promotions. -/
theorem Failure.isLocal_of_category
    {failure : Failure}
    (reduction : failure.category = .reduction) :
    failure.IsLocal := by
  rw [IsLocal, reduction]
  decide

theorem Failure.isLocal_badArguments (name : String) : (badArguments name).IsLocal := by
  simp [badArguments]

/-- A failure of calculations: neither that of a promotion nor that of a text which is no number. -/
def Failure.IsInternal (failure : Failure) : Prop :=
  failure.IsLocal ∧ ∀ text, failure ≠ .invalidNumber text

@[simp] theorem Failure.isInternal_iff {failure : Failure} :
    failure.IsInternal ↔ failure.IsLocal ∧ ∀ text, failure ≠ .invalidNumber text := Iff.rfl

theorem Failure.isInternal_badArguments (name : String) : (badArguments name).IsInternal := by
  simp [badArguments]

/-- Data that may contain numbers: whether all of these are of one kind. -/
class Numeric (α : Type) where
  OfKind : NumberKind → α → Prop

export Numeric (OfKind)

instance : Numeric Number := ⟨fun kind number => number.kind = kind⟩
instance : Numeric Unit := ⟨fun _ _ => True⟩
instance : Numeric Bool := ⟨fun _ _ => True⟩
instance : Numeric Ordering := ⟨fun _ _ => True⟩
instance : Numeric Nat := ⟨fun _ _ => True⟩
instance : Numeric Int := ⟨fun _ _ => True⟩

section

variable {α β : Type} [Numeric α] [Numeric β]

instance : Numeric (α × β) := ⟨fun kind pair => OfKind kind pair.1 ∧ OfKind kind pair.2⟩
instance : Numeric (α ⊕ β) := ⟨fun kind => Sum.elim (OfKind kind) (OfKind kind)⟩
instance : Numeric (Option α) := ⟨fun kind found => ∀ value ∈ found, OfKind kind value⟩
instance : Numeric (Array α) := ⟨fun kind values => ∀ value ∈ values, OfKind kind value⟩
instance : Numeric (List α) := ⟨fun kind values => ∀ value ∈ values, OfKind kind value⟩

/-- A result is of a kind if its value is; it must not be one of a promotion or of a text that is
no number. -/
instance : Numeric (Except Failure α) where
  OfKind kind
    | .ok value => OfKind kind value
    | .error failure => failure.IsInternal

variable {kind : NumberKind}

@[simp, grind =] theorem ofKind_number (number : Number) :
    OfKind kind number ↔ number.kind = kind := Iff.rfl

@[simp, grind =] theorem ofKind_unit (value : Unit) : OfKind kind value ↔ True := Iff.rfl
@[simp, grind =] theorem ofKind_bool (value : Bool) : OfKind kind value ↔ True := Iff.rfl
@[simp, grind =] theorem ofKind_ordering (value : Ordering) : OfKind kind value ↔ True := Iff.rfl
@[simp, grind =] theorem ofKind_nat (value : Nat) : OfKind kind value ↔ True := Iff.rfl
@[simp, grind =] theorem ofKind_int (value : Int) : OfKind kind value ↔ True := Iff.rfl

@[simp, grind =] theorem ofKind_prod (pair : α × β) :
    OfKind kind pair ↔ OfKind kind pair.1 ∧ OfKind kind pair.2 := Iff.rfl

@[simp, grind =] theorem ofKind_inl (value : α) :
    OfKind kind (.inl value : α ⊕ β) ↔ OfKind kind value := Iff.rfl

@[simp, grind =] theorem ofKind_inr (value : β) :
    OfKind kind (.inr value : α ⊕ β) ↔ OfKind kind value := Iff.rfl

@[simp, grind =] theorem ofKind_none : OfKind kind (none : Option α) ↔ True :=
  ⟨fun _ => trivial, fun _ _ absent => by cases absent⟩

@[simp, grind =] theorem ofKind_some (value : α) :
    OfKind kind (some value) ↔ OfKind kind value := by
  refine ⟨fun all => all value rfl, fun fine other same => ?_⟩
  obtain rfl := Option.some.inj same
  exact fine

@[simp, grind =] theorem ofKind_ok (value : α) :
    OfKind kind (.ok value : Except Failure α) ↔ OfKind kind value := Iff.rfl

@[simp, grind =] theorem ofKind_error (failure : Failure) :
    OfKind kind (.error failure : Except Failure α) ↔ failure.IsInternal := Iff.rfl

/-- Two computations in a representation make one. -/
@[grind ←] theorem ofKind_bind
    {result : Except Failure α}
    {next : α → Except Failure β}
    (first : OfKind kind result)
    (second : ∀ value, OfKind kind value → OfKind kind (next value)) :
    OfKind kind (result >>= next) := by
  cases result with
  | ok value => exact second value first
  | error failure => exact first

@[grind ←] theorem ofKind_pure {value : α} (fine : OfKind kind value) :
    OfKind kind (pure value : Except Failure α) := fine

@[grind ←] theorem ofKind_map
    {result : Except Failure α}
    {function : α → β}
    (first : OfKind kind result)
    (second : ∀ value, OfKind kind value → OfKind kind (function value)) :
    OfKind kind (result.map function) := by
  cases result with
  | ok value => exact second value first
  | error failure => exact first

/-- A walk stays in the representation when every step does. -/
theorem ofKind_mapM
    {γ : Type}
    {function : γ → Except Failure α}
    {values : List γ}
    (every : ∀ value ∈ values, OfKind kind (function value)) :
    OfKind kind (values.mapM function) := by
  induction values with
  | nil => exact fun _ absent => absurd absent List.not_mem_nil
  | cons first rest hypothesis =>
      rw [List.mapM_cons]
      refine ofKind_bind (every first List.mem_cons_self) fun value fine => ?_
      refine ofKind_bind (hypothesis fun other member =>
        every other (List.mem_cons_of_mem _ member))
        fun others fineOthers => ?_
      exact List.forall_mem_cons.2 ⟨fine, fineOthers⟩

end

/-! ## Numbers -/

namespace Number

variable {kind : NumberKind} {first second : Number}

/-- Numbers of one representation are both doubles or both decimals. -/
theorem ofKind_cases (same : first.kind = kind) (other : second.kind = kind) :
    (∃ left right, first = .fast left ∧ second = .fast right ∧ kind = .fast) ∨
      ∃ left right, first = .precise left ∧ second = .precise right ∧ kind = .precise := by
  subst same
  cases first <;> cases second <;> simp_all [Number.kind]

@[simp, grind =] theorem kind_ofInt (kind : NumberKind) (number : Int) :
    (ofInt kind number).kind = kind := by
  cases kind <;> rfl

@[simp, grind =] theorem kind_zero (kind : NumberKind) : (zero kind).kind = kind :=
  kind_ofInt kind 0

@[simp, grind =] theorem kind_one (kind : NumberKind) : (one kind).kind = kind :=
  kind_ofInt kind 1

@[simp, grind =] theorem kind_neg (number : Number) : number.neg.kind = number.kind := by
  cases number <;> rfl

@[simp, grind =] theorem kind_abs (number : Number) : number.abs.kind = number.kind := by
  unfold abs
  split
  · exact kind_neg number
  · rfl

@[simp, grind =] theorem kind_trimmed (number : Number) : number.trimmed.kind = number.kind := by
  cases number <;> rfl

@[simp, grind =] theorem kind_maxError (number : Number) : number.maxError.kind = number.kind := by
  cases number <;> rfl

@[simp, grind =] theorem kind_floor (number : Number) : number.floor.kind = number.kind := by
  cases number <;> rfl

@[simp, grind =] theorem kind_fractionalPart (number : Number) :
    number.fractionalPart.kind = number.kind := by
  cases number <;> rfl

@[grind ←] theorem ofKind_add (same : first.kind = kind) (other : second.kind = kind) :
    OfKind kind (first.add second) := by
  obtain ⟨_, _, rfl, rfl, rfl⟩ | ⟨_, _, rfl, rfl, rfl⟩ := ofKind_cases same other <;> rfl

@[grind ←] theorem ofKind_sub (same : first.kind = kind) (other : second.kind = kind) :
    OfKind kind (first.sub second) := by
  obtain ⟨_, _, rfl, rfl, rfl⟩ | ⟨_, _, rfl, rfl, rfl⟩ := ofKind_cases same other <;> rfl

@[grind ←] theorem ofKind_mul (same : first.kind = kind) (other : second.kind = kind) :
    OfKind kind (first.mul second) := by
  obtain ⟨_, _, rfl, rfl, rfl⟩ | ⟨_, _, rfl, rfl, rfl⟩ := ofKind_cases same other <;> rfl

@[grind ←] theorem ofKind_compare (same : first.kind = kind) (other : second.kind = kind) :
    OfKind kind (first.compare second) := by
  obtain ⟨_, _, rfl, rfl, rfl⟩ | ⟨_, _, rfl, rfl, rfl⟩ := ofKind_cases same other <;> trivial

@[grind ←] theorem ofKind_div (same : first.kind = kind) (other : second.kind = kind) :
    OfKind kind (first.div second) := by
  obtain ⟨left, right, rfl, rfl, rfl⟩ | ⟨left, right, rfl, rfl, rfl⟩ := ofKind_cases same other
  · simp only [div, Binary64.divide]
    split
    · exact (by simp : Failure.divisionByZero.IsInternal)
    · rfl
  · simp only [div, Decimal.div]
    split
    · exact (by simp : Failure.divisionByZero.IsInternal)
    · rfl

@[grind ←] theorem ofKind_powInt {base : Number} (same : base.kind = kind) (exponent : Int) :
    OfKind kind (base.powInt exponent) := by
  subst same
  cases base with
  | fast value =>
      simp only [powInt, Binary64.power]
      split
      · exact (by simp : Failure.divisionByZero.IsInternal)
      · split <;> rfl
  | precise value =>
      simp only [powInt, Decimal.powInt, Decimal.div]
      split
      · rfl
      · split
        · exact (by simp : Failure.divisionByZero.IsInternal)
        · split
          · split
            · exact (by simp : Failure.divisionByZero.IsInternal)
            · rfl
          · rfl

/-- What is read as a literal can be parsed, in the representation asked for. -/
theorem ofKind_parse
    (kind : NumberKind)
    {text : String}
    (readable : (Literal.read? text.toList).isSome = true) :
    OfKind kind (parse kind text) := by
  obtain ⟨literal, reads⟩ := Option.isSome_iff_exists.1 readable
  rw [parse, reads]
  cases kind <;> rfl

theorem isLocal_of_parse
    {text : String}
    {failure : Failure}
    (fails : parse kind text = .error failure) :
    failure.IsLocal := by
  unfold parse at fails
  split at fails
  next => cases fails
  next =>
    obtain rfl := Except.error.inj fails
    simp

end Number

/-! ## Calculations -/

namespace Caches

/-- Every value is kept under the kind that it is of. -/
structure OfKinds (caches : Caches) : Prop where
  pi : ∀ kind value, caches.pi.get kind = some value → value.kind = kind
  factorials : ∀ kind, ∀ value ∈ caches.factorials.get kind, value.kind = kind
  constants : ∀ key kind value, caches.constant? key kind = some value → value.kind = kind

/-- Empty caches hold nothing of another representation. -/
theorem ofKinds_empty : empty.OfKinds where
  pi kind value known := by cases kind <;> cases known
  factorials kind value member := by
    cases kind <;> exact absurd member (Array.not_mem_empty value)
  constants key kind value known := by cases known

namespace OfKinds

variable {caches : Caches} {kind : NumberKind} {value : Number}

/-- A value of the right representation can be kept as pi. -/
theorem storePi (kinds : caches.OfKinds) (same : value.kind = kind) :
    (caches.storePi kind value).OfKinds where
  pi other kept known := by
    rw [Caches.storePi, PerKind.get_set] at known
    split at known
    next sameKind =>
      obtain rfl := Option.some.inj known
      exact same.trans sameKind.symm
    next => exact kinds.pi other kept known
  factorials := kinds.factorials
  constants := kinds.constants

theorem storeConstant (kinds : caches.OfKinds) (key : String) (same : value.kind = kind) :
    (caches.storeConstant key kind value).OfKinds where
  pi := kinds.pi
  factorials := kinds.factorials
  constants other otherKind kept known := by
    rw [Caches.constant?, Caches.storeConstant, List.lookup_cons] at known
    split at known
    next here =>
      obtain rfl := Option.some.inj known
      obtain ⟨_, rfl⟩ : other = key ∧ otherKind = kind := by simpa using here
      exact same
    next => exact kinds.constants other otherKind kept known

theorem factorialTable (kinds : caches.OfKinds) (kind : NumberKind) :
    OfKind kind (caches.factorialTable kind) := by
  intro value member
  simp only [Caches.factorialTable] at member
  split at member
  · obtain rfl : value = Number.one kind := by simpa using member
    exact Number.kind_one kind
  · exact kinds.factorials kind value member

/-- Factorials of the right representation can be kept. -/
theorem appendFactorials
    (kinds : caches.OfKinds)
    (start : Nat)
    {fresh : Array Number}
    (fine : OfKind kind fresh) :
    (caches.appendFactorials kind start fresh).OfKinds where
  pi := kinds.pi
  constants := kinds.constants
  factorials other value member := by
    rw [Caches.appendFactorials, PerKind.get_set] at member
    split at member
    next same =>
      subst same
      split at member
      next =>
        rcases Array.mem_append.1 member with before | behind
        · exact kinds.factorialTable other value before
        · obtain ⟨_, _, rfl⟩ := Array.mem_extract_iff_getElem.1 behind
          exact fine _ (Array.getElem_mem _)
      next => exact kinds.factorialTable other value member
    next => exact kinds.factorials other value member

end OfKinds
end Caches

/-- A calculation that stays in a kind. -/
def Calc.StaysIn {α : Type} [Numeric α] (kind : NumberKind) (run : Calc α) : Prop :=
  run.Ensures (fun machine => machine.caches.OfKinds) (OfKind kind) Failure.IsInternal

open Calc

section

variable {α β : Type} [Numeric α] [Numeric β] {kind : NumberKind}

@[grind ←] theorem staysIn_pure {value : α} (fine : OfKind kind value) :
    StaysIn kind (pure value : Calc α) :=
  ensures_pure fine

@[grind ←] theorem staysIn_fail {failure : Failure} (fine : failure.IsInternal) :
    StaysIn kind (Run.fail failure : Calc α) :=
  ensures_fail fine

/-- A result of a kind, in a computation on any state. -/
theorem ensures_lift
    {σ : Type}
    {holds : σ → Prop}
    {result : Except Failure α}
    (fine : OfKind kind result) :
    (liftM result : Run σ α).Ensures holds (OfKind kind) Failure.IsInternal := by
  refine ensures_ofResult ?_ ?_
  · rintro value rfl
    exact fine
  · rintro failure rfl
    exact fine

@[grind ←] theorem staysIn_outsideDomain (function detail : String) :
    StaysIn kind (Run.fail (.outsideDomain function detail) : Calc α) :=
  staysIn_fail (by simp)

@[grind ←] theorem staysIn_lift {result : Except Failure α} (fine : OfKind kind result) :
    StaysIn kind (liftM result : Calc α) :=
  ensures_lift fine

/-- Two calculations in a representation make one. -/
@[grind ←] theorem Calc.StaysIn.bind
    {run : Calc α}
    {next : α → Calc β}
    (first : StaysIn kind run)
    (second : ∀ value, OfKind kind value → StaysIn kind (next value)) :
    StaysIn kind (run >>= next) :=
  Ensures.bind first second

/-- A loop stays in the representation when every pass does. -/
@[grind ←] theorem staysIn_repeatUntil
    {step : β → Calc (β ⊕ α)}
    {start : β}
    (steps : ∀ current, OfKind kind current → StaysIn kind (step current))
    (fine : OfKind kind start) :
    StaysIn kind (repeatUntil step start) :=
  ensures_repeatUntil steps fine

theorem staysIn_withLimit
    {run : Nat → Calc α}
    (every : ∀ limit, StaysIn kind (run limit)) :
    StaysIn kind (withLimit run) :=
  ensures_withLimit every

theorem staysIn_goOn : StaysIn kind (goOn : Calc α) :=
  ensures_goOn

/-- What follows the caches may rely on what they are kept under. -/
theorem staysIn_getThe_bind
    {next : Caches → Calc α}
    (follows : ∀ caches : Caches, caches.OfKinds → StaysIn kind (next caches)) :
    StaysIn kind (getThe Caches >>= next) := by
  intro limit machine held
  exact follows machine.caches held limit machine held

theorem staysIn_modifyThe
    {update : Caches → Caches}
    (keeps : ∀ caches : Caches, caches.OfKinds → (update caches).OfKinds) :
    StaysIn kind (modifyThe Caches update : Calc PUnit) := by
  intro limit machine held
  exact ⟨keeps machine.caches held, fun _ _ => trivial, fun _ same => by cases same⟩

theorem Calc.staysIn_poll : StaysIn kind poll := by
  intro limit machine held
  rw [poll_eq]
  refine ⟨held, ?_, fun _ same => by cases same⟩
  rintro answer same
  obtain rfl := Except.ok.inj same
  split
  next => exact (by simp : Failure.cancelled.IsInternal)
  next => trivial

@[grind ←] theorem Calc.staysIn_check : StaysIn kind Calc.check :=
  staysIn_poll.bind fun _ fine => staysIn_lift fine

end

/-! ## Cached values -/

section

variable {kind : NumberKind}

/-- The factorials that are missing are made in the representation of the last one. -/
theorem staysIn_extendFactorials
    (count index : Nat)
    {last : Number}
    {fresh : Array Number}
    (same : last.kind = kind)
    (fine : OfKind kind fresh) :
    StaysIn kind (Caches.extendFactorials kind poll count index last fresh) := by
  induction count generalizing index last fresh with
  | zero => exact staysIn_pure ⟨same, fine⟩
  | succ count hypothesis =>
      unfold Caches.extendFactorials
      refine staysIn_poll.bind fun answer answerFine => ?_
      cases answer with
      | error failure => exact staysIn_pure ⟨answerFine, fine⟩
      | ok _ =>
          have product := Number.ofKind_mul same (Number.kind_ofInt kind index)
          cases next : last.mul (.ofInt kind index) with
          | error failure => exact staysIn_pure ⟨next ▸ product, fine⟩
          | ok value =>
              rw [next] at product
              refine hypothesis (index + 1) product fun entry member => ?_
              rcases Array.mem_push.1 member with before | rfl
              · exact fine entry before
              · exact product

/-- A factorial is of the kind that it is asked for in. -/
@[grind ←] theorem Calc.staysIn_factorial (number : Nat) :
    StaysIn kind (Calc.factorial kind number) := by
  refine StaysIn.bind ?_ fun _ fine => staysIn_lift fine
  refine staysIn_getThe_bind fun caches kinds => ?_
  have table := kinds.factorialTable kind
  dsimp only
  cases found : (caches.factorialTable kind)[number]? with
  | some known => exact staysIn_pure (table known (Array.mem_of_getElem? found))
  | none =>
      have last : ((caches.factorialTable kind).back?.getD (.one kind)).kind = kind := by
        cases back : (caches.factorialTable kind).back? with
        | none => exact Number.kind_one kind
        | some value => exact table value (Array.mem_of_back? back)
      have nothing : OfKind kind (#[] : Array Number) :=
        fun value member => absurd member (Array.not_mem_empty value)
      refine (staysIn_extendFactorials _ _ last nothing).bind fun outcome fine => ?_
      refine (staysIn_modifyThe fun current held => held.appendFactorials _ fine.2).bind
        fun _ _ => ?_
      exact staysIn_pure fine.1

/-- A constant that is kept is of the kind that it is kept under. -/
theorem staysIn_memoize
    (key : String)
    {compute : Calc Number}
    (computes : StaysIn kind compute) :
    StaysIn kind (Caches.memoize key kind compute) := by
  refine staysIn_getThe_bind fun caches kinds => ?_
  split
  next known found => exact staysIn_pure (kinds.constants key kind known found)
  next =>
    refine computes.bind fun value same => ?_
    exact (staysIn_modifyThe fun current held => held.storeConstant key same).bind
      fun _ _ => staysIn_pure same

/-- Pi is of the kind that it is asked for in if the implementation of the kind gives it in this. -/
theorem Registry.staysIn_pi
    {registry : Registry}
    (gives : ∀ name implementation,
      registry.implementationFor? kind = some (name, implementation) →
        StaysIn kind implementation.pi) :
    StaysIn kind (registry.pi kind) := by
  refine staysIn_getThe_bind fun caches kinds => ?_
  split
  next known found => exact staysIn_pure (kinds.pi kind known found)
  next =>
    split
    next => exact staysIn_outsideDomain _ _
    next name implementation found =>
      refine (gives name implementation found).bind fun value same => ?_
      exact (staysIn_modifyThe fun current held => held.storePi same).bind
        fun _ _ => staysIn_pure same

end

end Reckoner
