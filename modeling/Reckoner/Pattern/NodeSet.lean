/-!
# Sets of nodes

A set of numbers below a bound.  It remembers its members in the order in which they came, the
latest first, and marks them, so that one look tells whether a number is a member.
-/

namespace Reckoner

/-- Numbers below `bound`, listed and marked. -/
structure NodeSet (bound : Nat) where
  members : List Nat
  marks : Vector Bool bound
  marked_iff : ∀ id (inside : id < bound), marks[id] = true ↔ id ∈ members

namespace NodeSet

variable {bound : Nat}

/-- The set without members. -/
def empty (bound : Nat) : NodeSet bound :=
  ⟨[], Vector.replicate bound false, by simp⟩

/-- Whether a number is a member. -/
def contains (set : NodeSet bound) (id : Nat) (inside : id < bound) : Bool :=
  set.marks[id]

/-- A set with one more member. -/
def insert (set : NodeSet bound) (id : Nat) (inside : id < bound) : NodeSet bound :=
  match set with
  | ⟨members, marks, marked_iff⟩ =>
      ⟨id :: members, marks.set id true, by
        intro other below
        rw [Vector.getElem_set, List.mem_cons, ← marked_iff other below]
        by_cases same : id = other
        · simp [same]
        · simp [same, Ne.symm same]⟩

theorem members_empty : (empty bound).members = [] :=
  rfl

theorem members_insert (set : NodeSet bound) (id : Nat) (inside : id < bound) :
    (set.insert id inside).members = id :: set.members :=
  rfl

theorem contains_iff (set : NodeSet bound) (id : Nat) (inside : id < bound) :
    set.contains id inside = true ↔ id ∈ set.members :=
  set.marked_iff id inside

end NodeSet
end Reckoner
