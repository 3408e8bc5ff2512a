import Reckoner.Number

/-!
# Caches

Values that are worked out once and kept: the ratio of a circle's circumference to its diameter, a
table of factorials, and named constants, each for both representations of numbers.  The functions
that fill the caches work in any monad that has them as a state, so that whatever they run on the
way may use the caches too.
-/

namespace Reckoner

/-- A value for each representation of numbers. -/
structure PerKind (α : Type) where
  fast : α
  precise : α
  deriving DecidableEq, Repr

namespace PerKind

/-- The same value for both representations. -/
def both (value : α) : PerKind α := ⟨value, value⟩

/-- The value for a representation. -/
def get (values : PerKind α) : NumberKind → α
  | .fast => values.fast
  | .precise => values.precise

/-- Replace the value for a representation. -/
def set (values : PerKind α) (kind : NumberKind) (value : α) : PerKind α :=
  match kind with
  | .fast => { values with fast := value }
  | .precise => { values with precise := value }

@[simp] theorem get_set (values : PerKind α) (kind other : NumberKind) (value : α) :
    (values.set kind value).get other = if other = kind then value else values.get other := by
  cases kind <;> cases other <;> rfl

end PerKind

/-- The values that have been worked out so far. -/
structure Caches where
  pi : PerKind (Option Number)
  factorials : PerKind (Array Number)
  constants : List ((String × NumberKind) × Number)
  deriving DecidableEq

namespace Caches

/-- Nothing has been worked out. -/
def empty : Caches :=
  ⟨.both none, .both #[], []⟩

/-- Keep the value of pi. -/
def storePi (caches : Caches) (kind : NumberKind) (value : Number) : Caches :=
  { caches with pi := caches.pi.set kind (some value) }

/-- A constant that has been worked out. -/
def constant? (caches : Caches) (key : String) (kind : NumberKind) : Option Number :=
  caches.constants.lookup (key, kind)

/-- Keep a constant. -/
def storeConstant (caches : Caches) (key : String) (kind : NumberKind) (value : Number) : Caches :=
  { caches with constants := ((key, kind), value) :: caches.constants }

/-- The factorials known so far, from that of zero on; those of zero and one are always known. -/
def factorialTable (caches : Caches) (kind : NumberKind) : Array Number :=
  let stored := caches.factorials.get kind
  if stored.isEmpty then #[.one kind, .one kind] else stored

/-- Keep factorials that continue a table of `start` entries.  The table may have grown in the
meantime; the entries that it has by now are left as they are. -/
def appendFactorials
    (caches : Caches)
    (kind : NumberKind)
    (start : Nat)
    (fresh : Array Number) :
    Caches :=
  let table := caches.factorialTable kind
  let grown :=
    if start ≤ table.size then table ++ fresh.extract (table.size - start) fresh.size else table
  { caches with factorials := caches.factorials.set kind grown }

section Filling

variable {m : Type → Type} [Monad m]

/-- Work out `count` factorials from that of `index` on, `last` being the one before, and check
before each of them whether to go on.  The ones worked out are returned in any case. -/
@[specialize] def extendFactorials (kind : NumberKind) (check : m (Except Failure Unit)) :
    (count index : Nat) → (last : Number) → (fresh : Array Number) →
      m (Except Failure Number × Array Number)
  | 0, _, last, fresh => pure (.ok last, fresh)
  | count + 1, index, last, fresh => do
      match ← check with
      | .error failure => pure (.error failure, fresh)
      | .ok _ =>
          match last.mul (.ofInt kind index) with
          | .error failure => pure (.error failure, fresh)
          | .ok next => extendFactorials kind check count (index + 1) next (fresh.push next)

variable [MonadStateOf Caches m]

/-- The factorial of a number, from the table or by extending it. -/
@[specialize] def factorial (kind : NumberKind) (number : Nat) (check : m (Except Failure Unit)) :
    m (Except Failure Number) := do
  let table := (← getThe Caches).factorialTable kind
  match table[number]? with
  | some known => pure (.ok known)
  | none =>
      let last := table.back?.getD (.one kind)
      let (outcome, fresh) ←
        extendFactorials kind check (number + 1 - table.size) table.size last #[]
      -- what has been worked out is kept even where the check has stopped the rest
      modifyThe Caches (·.appendFactorials kind table.size fresh)
      pure outcome

/-- The constant of a name, worked out at its first use. -/
@[specialize] def memoize (key : String) (kind : NumberKind) (compute : m Number) : m Number := do
  match (← getThe Caches).constant? key kind with
  | some known => pure known
  | none =>
      let value ← compute
      modifyThe Caches (·.storeConstant key kind value)
      pure value

end Filling

end Caches
end Reckoner
