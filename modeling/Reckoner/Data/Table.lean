/-!
# Tables

A finite map from names, kept as a list of entries whose names rise strictly.  Two tables with the
same bindings are therefore equal, and the names of a table come out sorted by code point.  Whoever
goes through the entries may do so in another order, as tables that are kept by hashing do.
-/

namespace Reckoner

/-- An order in which entries are gone through, each of them once. -/
structure Traversal (α : Type) where
  arrange : List (String × α) → List (String × α)
  perm : ∀ entries, (arrange entries).Perm entries

/-- The order of the names. -/
def Traversal.byName {α : Type} : Traversal α :=
  ⟨id, fun entries => .refl entries⟩

/-- Bindings of names, each name once and in order. -/
structure Table (α : Type) where
  entries : List (String × α)
  sorted : entries.Pairwise (fun first second => first.1 < second.1)

namespace Table

variable {α : Type}

instance [DecidableEq α] : DecidableEq (Table α) := fun first second =>
  decidable_of_iff (first.entries = second.entries)
    ⟨fun same => by cases first; cases second; cases same; rfl, fun same => same ▸ rfl⟩

/-- The table without bindings. -/
def empty : Table α :=
  ⟨[], List.Pairwise.nil⟩

instance : Inhabited (Table α) := ⟨empty⟩

/-- Whether a table has no bindings. -/
def isEmpty (table : Table α) : Bool :=
  table.entries.isEmpty

/-- The names that a table binds, in order. -/
def names (table : Table α) : List String :=
  table.entries.map Prod.fst

/-- The entries in an order of one's own. -/
def entriesIn (table : Table α) (order : Traversal α) : List (String × α) :=
  order.arrange table.entries

@[simp] theorem entriesIn_byName (table : Table α) : table.entriesIn .byName = table.entries := rfl

/-- An order of the entries has the same entries. -/
theorem mem_entriesIn {table : Table α} {order : Traversal α} {entry : String × α} :
    entry ∈ table.entriesIn order ↔ entry ∈ table.entries :=
  (order.perm table.entries).mem_iff

/-- The binding of a name among entries. -/
def findIn? (name : String) : List (String × α) → Option α
  | [] => none
  | (other, value) :: rest => if name = other then some value else findIn? name rest

/-- The binding of a name. -/
def find? (table : Table α) (name : String) : Option α :=
  findIn? name table.entries

/-- Whether a name is bound. -/
def contains (table : Table α) (name : String) : Bool :=
  (table.find? name).isSome

/-- Put a binding at its place among sorted entries, in place of an earlier one of the name. -/
def insertEntry (name : String) (value : α) : List (String × α) → List (String × α)
  | [] => [(name, value)]
  | (other, kept) :: rest =>
      if name < other then (name, value) :: (other, kept) :: rest
      else if name = other then (name, value) :: rest
      else (other, kept) :: insertEntry name value rest

theorem eq_or_mem_of_mem_insertEntry
    {name : String}
    {value : α}
    {entry : String × α}
    {entries : List (String × α)}
    (member : entry ∈ insertEntry name value entries) :
    entry = (name, value) ∨ entry ∈ entries := by
  induction entries with
  | nil => simp_all [insertEntry]
  | cons first rest hypothesis =>
      obtain ⟨other, kept⟩ := first
      grind [insertEntry]

/-- An insertion keeps the entries sorted by name. -/
theorem pairwise_insertEntry
    (name : String)
    (value : α)
    {entries : List (String × α)}
    (sorted : entries.Pairwise (fun first second => first.1 < second.1)) :
    (insertEntry name value entries).Pairwise (fun first second => first.1 < second.1) := by
  induction entries with
  | nil => simp [insertEntry]
  | cons first rest hypothesis =>
      obtain ⟨other, kept⟩ := first
      rw [List.pairwise_cons] at sorted
      unfold insertEntry
      split
      next before =>
        rw [List.pairwise_cons, List.pairwise_cons]
        refine ⟨?_, sorted⟩
        intro entry member
        rcases List.mem_cons.1 member with rfl | later
        · exact before
        · exact String.lt_trans before (sorted.1 entry later)
      next notBefore =>
        split
        next same =>
          subst same
          exact List.pairwise_cons.2 sorted
        next different =>
          rw [List.pairwise_cons]
          refine ⟨?_, hypothesis sorted.2⟩
          intro entry member
          rcases eq_or_mem_of_mem_insertEntry member with rfl | later
          · exact Std.lt_of_le_of_ne (String.not_lt.1 notBefore) (fun same => different same.symm)
          · exact sorted.1 entry later

/-- Bind a name, in place of an earlier binding. -/
def insert (table : Table α) (name : String) (value : α) : Table α :=
  ⟨insertEntry name value table.entries, pairwise_insertEntry name value table.sorted⟩

/-- Bind every name that the second table binds, in place of earlier bindings. -/
def apply (table other : Table α) : Table α :=
  other.entries.foldl (fun result entry => result.insert entry.1 entry.2) table

@[simp] theorem find?_empty (name : String) : (empty : Table α).find? name = none := rfl

/-- After an insertion the name has the new value and others are as before. -/
theorem findIn?_insertEntry
    (name other : String)
    (value : α)
    (entries : List (String × α)) :
    findIn? other (insertEntry name value entries) =
      if other = name then some value else findIn? other entries := by
  induction entries with
  | nil => simp [insertEntry, findIn?]
  | cons first rest hypothesis =>
      obtain ⟨key, kept⟩ := first
      grind [insertEntry, findIn?]

/-- Binding a name changes what that name is bound to and nothing else. -/
@[simp] theorem find?_insert (table : Table α) (name other : String) (value : α) :
    (table.insert name value).find? other =
      if other = name then some value else table.find? other :=
  findIn?_insertEntry name other value table.entries

/-- No name is bound twice. -/
theorem nodup_names (table : Table α) : table.names.Nodup := by
  refine List.pairwise_map.2 (table.sorted.imp fun before => ?_)
  intro same
  exact String.lt_irrefl _ (same ▸ before)

theorem isSome_find?_iff {table : Table α} {name : String} :
    (table.find? name).isSome = true ↔ name ∈ table.names := by
  unfold find? names
  induction table.entries with
  | nil => simp [findIn?]
  | cons first rest hypothesis =>
      obtain ⟨key, kept⟩ := first
      by_cases same : name = key
      · simp [findIn?, same]
      · simp [findIn?, same, hypothesis]

theorem mem_of_find?
    {table : Table α}
    {name : String}
    {value : α}
    (found : table.find? name = some value) :
    (name, value) ∈ table.entries := by
  unfold find? at found
  generalize table.entries = entries at found ⊢
  induction entries with
  | nil => cases found
  | cons first rest hypothesis =>
      obtain ⟨key, kept⟩ := first
      by_cases same : name = key
      · simp_all [findIn?]
      · simp_all [findIn?]

/-- Whatever a table binds a name to has a property. -/
def All (property : α → Prop) (table : Table α) : Prop :=
  ∀ entry ∈ table.entries, property entry.2

theorem all_empty (property : α → Prop) : (empty : Table α).All property :=
  fun _ member => absurd member List.not_mem_nil

/-- What holds of all values still does after an insertion of one it holds of. -/
theorem All.insert
    {property : α → Prop}
    {table : Table α}
    {value : α}
    (all : table.All property)
    (name : String)
    (holds : property value) :
    (table.insert name value).All property := by
  intro entry member
  rcases eq_or_mem_of_mem_insertEntry member with rfl | before
  · exact holds
  · exact all entry before

/-- What holds of all values holds of a found one. -/
theorem All.of_find?
    {property : α → Prop}
    {table : Table α}
    {name : String}
    {value : α}
    (all : table.All property)
    (found : table.find? name = some value) :
    property value :=
  all (name, value) (mem_of_find? found)

/-- The names of a table are those that are bound to something. -/
theorem mem_names_iff {table : Table α} {name : String} :
    name ∈ table.names ↔ ∃ value, table.find? name = some value := by
  rw [← isSome_find?_iff, Option.isSome_iff_exists]

end Table
end Reckoner
