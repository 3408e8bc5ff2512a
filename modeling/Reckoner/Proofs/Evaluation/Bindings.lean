import Mathlib.Data.List.Sort
import Reckoner.Proofs.Evaluation.Assignments
import Reckoner.Proofs.Evaluation.Invariance

/-!
# What becomes of bindings

An evaluation changes bindings through the assignments that it comes by.  Each of these is a node
of the expression or of a definition, those that are made on the way being nodes of the
expression or of earlier definitions in turn.  So every name stays bound, and only the names that
are assigned to somewhere may be bound to something else afterwards.
-/

namespace Reckoner

/-! ## Tables -/

namespace Table

variable {α : Type}

theorem findIn?_eq_none
    {name : String}
    {entries : List (String × α)}
    (absent : ∀ entry ∈ entries, entry.1 ≠ name) :
    findIn? name entries = none := by
  induction entries with
  | nil => rfl
  | cons first rest hypothesis =>
      rw [findIn?, if_neg (absent first List.mem_cons_self).symm]
      exact hypothesis fun entry member => absent entry (List.mem_cons_of_mem first member)

/-- A table binds a name to what stands in its entries. -/
theorem find?_eq_some_iff {table : Table α} {name : String} {value : α} :
    table.find? name = some value ↔ (name, value) ∈ table.entries := by
  refine ⟨mem_of_find?, fun member => ?_⟩
  obtain ⟨other, found⟩ := mem_names_iff.1 (List.mem_map_of_mem member : name ∈ table.names)
  have same := List.inj_on_of_nodup_map table.nodup_names (mem_of_find? found) member rfl
  cases same
  exact found

/-- Tables that bind the same names to the same are equal. -/
theorem ext_find?
    {first second : Table α}
    (same : ∀ name, first.find? name = second.find? name) :
    first = second := by
  have perm : first.entries.Perm second.entries := by
    refine (List.perm_ext_iff_of_nodup (List.Nodup.of_map _ first.nodup_names)
      (List.Nodup.of_map _ second.nodup_names)).2 ?_
    rintro ⟨name, value⟩
    rw [← find?_eq_some_iff, ← find?_eq_some_iff, same]
  have entries : first.entries = second.entries := by
    refine perm.eq_of_pairwise ?_ first.sorted second.sorted
    intro one other _ _ before behind
    exact absurd (String.lt_trans before behind) (String.lt_irrefl _)
  cases first
  cases second
  cases entries
  rfl

/-- What is taken over hides what has been there. -/
theorem find?_apply (table other : Table α) (name : String) :
    (table.apply other).find? name = (other.find? name).or (table.find? name) := by
  have folded (entries : List (String × α))
      (sorted : entries.Pairwise (fun first second => first.1 < second.1)) (table : Table α) :
      (entries.foldl (fun result entry => result.insert entry.1 entry.2) table).find? name =
        (findIn? name entries).or (table.find? name) := by
    induction entries generalizing table with
    | nil => rfl
    | cons first rest hypothesis =>
        obtain ⟨below, sortedRest⟩ := List.pairwise_cons.1 sorted
        rw [List.foldl_cons, hypothesis sortedRest, find?_insert, findIn?]
        by_cases same : name = first.1
        · have absent : findIn? name rest = none := by
            refine findIn?_eq_none fun entry member equal => ?_
            exact String.lt_irrefl name (by simpa [equal, ← same] using below entry member)
          rw [if_pos same, if_pos same, absent]
          rfl
        · rw [if_neg same, if_neg same]
  exact folded other.entries other.sorted table

/-- To take over a table that still binds all names is to replace the table by it. -/
theorem apply_eq_of_bound
    {table other : Table α}
    (bound : ∀ name, table.find? name ≠ none → other.find? name ≠ none) :
    table.apply other = other := by
  refine ext_find? fun name => ?_
  rw [find?_apply]
  cases found : other.find? name with
  | some value => rfl
  | none =>
      have absent : table.find? name = none := by
        by_contra present
        exact bound name present found
      rw [absent]
      rfl

end Table

/-! ## Occurrences -/

/-- An expression occurs in another one: it is the other one, or an operand of one that occurs in
it. -/
inductive Expr.Contains (whole : Expr) : Expr → Prop
  | self : Contains whole whole
  | operand {part operand : Expr}
      (contains : Contains whole part)
      (member : operand ∈ part.operands) :
      Contains whole operand

namespace Context

/-- An expression occurs in what is evaluated or in a definition. -/
def Holds (context : Context) (root part : Expr) : Prop :=
  root.Contains part ∨ ∃ name tree, context.definitions.find? name = some tree ∧ tree.Contains part

theorem Holds.operand
    {context : Context}
    {root part operand : Expr}
    (holds : context.Holds root part)
    (member : operand ∈ part.operands) :
    context.Holds root operand := by
  rcases holds with contains | ⟨name, tree, defined, contains⟩
  · exact .inl (contains.operand member)
  · exact .inr ⟨name, tree, defined, contains.operand member⟩

/-- A variable of this name is assigned to somewhere. -/
def Assigns (context : Context) (root : Expr) (name : String) : Prop :=
  ∃ right, context.Holds root (.binary .tree "=" (.variable name) right)

/-- A definition of this name is given somewhere. -/
def Defines (context : Context) (root : Expr) (name : String) : Prop :=
  ∃ right, context.Holds root (.binary .tree ":=" (.variable name) right)

/-- The bindings that the evaluation of an expression may come to from some bindings. -/
structure MayBecome (before : Context) (root : Expr) (after : Context) : Prop where
  implementation : after.implementation = before.implementation
  keepsValues : ∀ name, before.values.find? name ≠ none → after.values.find? name ≠ none
  keepsDefinitions : ∀ name, before.definitions.find? name ≠ none →
    after.definitions.find? name ≠ none
  values : ∀ name, after.values.find? name ≠ before.values.find? name → before.Assigns root name
  definitions : ∀ name, after.definitions.find? name ≠ before.definitions.find? name →
    before.Defines root name
  sources : ∀ name tree, after.definitions.find? name = some tree → before.Holds root tree

namespace MayBecome

variable {before after : Context} {root tree : Expr} {name : String}

theorem refl (context : Context) (root : Expr) : context.MayBecome root context where
  implementation := rfl
  keepsValues _ bound := bound
  keepsDefinitions _ bound := bound
  values _ differs := absurd rfl differs
  definitions _ differs := absurd rfl differs
  sources name tree defined := .inr ⟨name, tree, defined, .self⟩

/-- An assignment to a variable that occurs. -/
theorem setVariable
    (becomes : before.MayBecome root after)
    (assigns : before.Assigns root name)
    (value : Number) :
    before.MayBecome root (after.setVariable name value) where
  implementation := becomes.implementation
  keepsValues other bound := by
    rw [Context.setVariable, Table.find?_insert]
    split
    · exact Option.some_ne_none value
    · exact becomes.keepsValues other bound
  keepsDefinitions := becomes.keepsDefinitions
  values other differs := by
    rw [Context.setVariable, Table.find?_insert] at differs
    split at differs
    next same => exact same ▸ assigns
    next => exact becomes.values other differs
  definitions := becomes.definitions
  sources := becomes.sources

/-- A definition that occurs. -/
theorem setDefinition
    (becomes : before.MayBecome root after)
    (defines : before.Defines root name)
    (holds : before.Holds root tree) :
    before.MayBecome root (after.setDefinition name tree) where
  implementation := becomes.implementation
  keepsValues := becomes.keepsValues
  keepsDefinitions other bound := by
    rw [Context.setDefinition, Table.find?_insert]
    split
    · exact Option.some_ne_none tree
    · exact becomes.keepsDefinitions other bound
  values := becomes.values
  definitions other differs := by
    rw [Context.setDefinition, Table.find?_insert] at differs
    split at differs
    next same => exact same ▸ defines
    next => exact becomes.definitions other differs
  sources other body defined := by
    rw [Context.setDefinition, Table.find?_insert] at defined
    split at defined
    next => exact Option.some.inj defined ▸ holds
    next => exact becomes.sources other body defined

/-- To take over bindings that an evaluation has come to is to replace the earlier ones by them. -/
theorem apply_eq (becomes : before.MayBecome root after) : before.apply after = after := by
  have implementation :
      (after.implementation <|> before.implementation) = after.implementation := by
    rw [becomes.implementation]
    cases before.implementation <;> rfl
  rw [apply, implementation, Table.apply_eq_of_bound becomes.keepsValues,
    Table.apply_eq_of_bound becomes.keepsDefinitions]

end MayBecome
end Context

/-! ## Reductions -/

namespace Registry

open Run

variable {registry : Registry} {before : Context} {root : Expr}

/-- The bindings of an evaluation are such that it may have come to them. -/
def Reached (before : Context) (root : Expr) (evaluation : Evaluation) : Prop :=
  before.MayBecome root evaluation.context

/-- An assignment that occurs changes nothing but a binding of its name. -/
theorem reached_assigns
    {reducer : Reducer}
    (reduces : ∀ tree, before.Holds root tree →
      (reducer.reduce tree).Preserves (Reached before root) fun _ => True)
    {tree : Expr}
    {run : Reducer → Eval Number}
    (assigns : Assigns tree run)
    (holds : before.Holds root tree) :
    (run reducer).Preserves (Reached before root) fun _ => True := by
  cases assigns with
  | value name right =>
      have member : right ∈ (Expr.binary .tree "=" (.variable name) right).operands := by
        simp [Expr.operands]
      refine (reduces right (holds.operand member)).bind fun value => ?_
      refine Preserves.bind (preserves_change fun _ reached => ?_) fun _ => preserves_pure value
      exact reached.setVariable ⟨right, holds⟩ value
  | definition name right =>
      have member : right ∈ (Expr.binary .tree ":=" (.variable name) right).operands := by
        simp [Expr.operands]
      have inside := holds.operand member
      refine Preserves.bind (preserves_change fun _ reached => ?_) fun _ => reduces right inside
      exact reached.setDefinition ⟨right, holds⟩ inside

/-- Reductions of expressions that occur keep the bindings such as the evaluation may have come
to. -/
theorem OnlyAssigns.invariant
    (only : registry.OnlyAssigns)
    (before : Context)
    (root : Expr) :
    registry.Invariant (before.Holds root) (Reached before root) fun _ => True := by
  refine .ofBlind (fun _ _ _ reached => reached) (fun _ _ holds member => holds.operand member)
    (fun _ name tree reached defined => reached.sources name tree defined) ?_
  intro reducer tree holds handedOver reduces
  rcases only.handOver_eq handedOver with ⟨failure, fails⟩ | ⟨run, assigns, same⟩
  · rw [fails]
    exact preserves_fail trivial
  · rw [same]
    exact reached_assigns reduces assigns holds

/-- The bindings of a result are such as the evaluation may come to. -/
theorem OnlyAssigns.mayBecome_of_evaluate
    (only : registry.OnlyAssigns)
    {limit : Nat}
    {tree : Expr}
    {cancellation : Cancellation}
    {result : Evaluated}
    (succeeds : (evaluate limit registry before tree cancellation).result = .ok result) :
    before.MayBecome tree result.context := by
  obtain ⟨machine, expanding, reached⟩ := (only.invariant before tree).evaluate (.inl .self)
    (Context.MayBecome.refl before tree) succeeds
  exact reached

end Registry
end Reckoner
