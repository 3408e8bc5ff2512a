import Reckoner.Evaluation.Registry

/-!
# The order of the implementations

Where several implementations serve one representation, it depends on the order in which they are
gone through whose priority, conversions and pi count.  In every order they are those of one of
them.  Where no representation is served twice, the order makes no difference.
-/

namespace Reckoner

variable {implementations : List (String × NumberImplementation)} {kind source target : NumberKind}

/-- No representation is served twice. -/
def Unambiguous (implementations : List (String × NumberImplementation)) : Prop :=
  ∀ first ∈ implementations, ∀ second ∈ implementations,
    first.2.kind = second.2.kind → first = second

theorem Unambiguous.find?_eq_some_iff
    (unambiguous : Unambiguous implementations)
    {entry : String × NumberImplementation} :
    implementations.find? (fun other => other.2.kind = kind) = some entry ↔
      entry ∈ implementations ∧ entry.2.kind = kind := by
  constructor
  · intro found
    exact ⟨List.mem_of_find?_eq_some found, by simpa using List.find?_some found⟩
  · rintro ⟨member, serves⟩
    cases found : implementations.find? (fun other => other.2.kind = kind) with
    | none => exact absurd serves (by simpa using List.find?_eq_none.1 found entry member)
    | some other =>
        have same : other.2.kind = kind := by simpa using List.find?_some found
        rw [unambiguous other (List.mem_of_find?_eq_some found) entry member
          (same.trans serves.symm)]

/-- Entries that do not repeat a representation are found in every order. -/
theorem Unambiguous.find?_eq
    {others : List (String × NumberImplementation)}
    (unambiguous : Unambiguous implementations)
    (same : ∀ entry, entry ∈ others ↔ entry ∈ implementations) :
    others.find? (fun entry => entry.2.kind = kind) =
      implementations.find? (fun entry => entry.2.kind = kind) := by
  have alsoThere : Unambiguous others := fun first member second also =>
    unambiguous first ((same first).1 member) second ((same second).1 also)
  ext entry
  rw [alsoThere.find?_eq_some_iff, unambiguous.find?_eq_some_iff, same]

namespace Promotions

/-- A conversion is declared by an implementation of the one representation into one of the
other. -/
theorem mem_paths_iff {convert : Conversion} :
    convert ∈ paths implementations source target ↔
      ∃ first ∈ implementations, ∃ second ∈ implementations,
        first.2.kind = source ∧ second.2.kind = target ∧
        declared? first.2 second.1 second.2 = some convert := by
  simp only [paths, List.mem_flatMap, List.mem_filterMap, Option.ite_none_right_eq_some, and_assoc]

theorem getLast?_paths_eq_some_iff
    (unambiguous : Unambiguous implementations)
    {convert : Conversion} :
    (paths implementations source target).getLast? = some convert ↔
      convert ∈ paths implementations source target := by
  refine ⟨List.mem_of_getLast?, fun member => ?_⟩
  cases last : (paths implementations source target).getLast? with
  | none =>
      rw [List.getLast?_eq_none_iff.1 last] at member
      cases member
  | some other =>
      obtain ⟨first, here, second, there, isSource, isTarget, declares⟩ := mem_paths_iff.1 member
      obtain ⟨third, hereToo, fourth, thereToo, alsoSource, alsoTarget, declaresToo⟩ :=
        mem_paths_iff.1 (List.mem_of_getLast? last)
      rw [unambiguous third hereToo first here (alsoSource.trans isSource.symm),
        unambiguous fourth thereToo second there (alsoTarget.trans isTarget.symm),
        declares] at declaresToo
      exact declaresToo.symm

/-- Where no representation is served twice, only the set of implementations counts. -/
theorem ofImplementations_eq
    {others : List (String × NumberImplementation)}
    (unambiguous : Unambiguous implementations)
    (same : ∀ entry, entry ∈ others ↔ entry ∈ implementations) :
    ofImplementations others = ofImplementations implementations := by
  have alsoThere : Unambiguous others := fun first member second also =>
    unambiguous first ((same first).1 member) second ((same second).1 also)
  have priorities (kind : NumberKind) :
      others.reverse.find? (fun entry => entry.2.kind = kind) =
        implementations.reverse.find? (fun entry => entry.2.kind = kind) := by
    rw [unambiguous.find?_eq (fun entry => List.mem_reverse.trans (same entry)),
      unambiguous.find?_eq (fun entry => List.mem_reverse)]
  have conversions (source target : NumberKind) :
      (paths others source target).getLast? =
        (paths implementations source target).getLast? := by
    ext convert
    simp only [getLast?_paths_eq_some_iff alsoThere, getLast?_paths_eq_some_iff unambiguous,
      mem_paths_iff, same]
  simp only [ofImplementations, priorities, conversions]

end Promotions

namespace Registry

variable {registry : Registry}

/-- In every order, what is found for a representation is a registered implementation of it, and one
is found unless there is none. -/
theorem implementationFor?_registered (registry : Registry) (kind : NumberKind) :
    match registry.implementationFor? kind with
    | some found => found ∈ registry.implementations.entries ∧ found.2.kind = kind
    | none => ∀ entry ∈ registry.implementations.entries, entry.2.kind ≠ kind := by
  split
  next found search =>
    exact ⟨Table.mem_entriesIn.1 (List.mem_of_find?_eq_some search),
      by simpa using List.find?_some search⟩
  next search =>
    intro entry member
    simpa using List.find?_eq_none.1 search entry (Table.mem_entriesIn.2 member)

/-- In every order, a representation has the priority of a registered implementation of it, and
it has one unless there is none. -/
theorem priority?_rebuildPromotions
    (registry : Registry)
    (order : Traversal NumberImplementation)
    (kind : NumberKind) :
    match (registry.rebuildPromotions order).promotions.priority? kind with
    | some priority => ∃ entry ∈ registry.implementations.entries,
        entry.2.kind = kind ∧ entry.2.priority = priority
    | none => ∀ entry ∈ registry.implementations.entries, entry.2.kind ≠ kind := by
  have unfolded : (registry.rebuildPromotions order).promotions.priority? kind =
      ((registry.implementations.entriesIn order).reverse.find?
        (fun entry => entry.2.kind = kind)).map
        (·.2.priority) := rfl
  rw [unfolded]
  cases search : (registry.implementations.entriesIn order).reverse.find?
      (fun entry => entry.2.kind = kind) with
  | some found =>
      have member := List.mem_reverse.1 (List.mem_of_find?_eq_some search)
      exact ⟨found, Table.mem_entriesIn.1 member, by simpa using List.find?_some search, rfl⟩
  | none =>
      intro entry member
      have listed : entry ∈ registry.implementations.entriesIn order := Table.mem_entriesIn.2 member
      simpa using List.find?_eq_none.1 search entry (List.mem_reverse.2 listed)

/-- In every order, numbers are converted as a registered implementation declares, and there is a
conversion unless none is declared. -/
theorem path?_rebuildPromotions
    (registry : Registry)
    (order : Traversal NumberImplementation)
    (source target : NumberKind) :
    match (registry.rebuildPromotions order).promotions.path? source target with
    | some convert => ∃ first ∈ registry.implementations.entries,
        ∃ second ∈ registry.implementations.entries,
          first.2.kind = source ∧ second.2.kind = target ∧
          Promotions.declared? first.2 second.1 second.2 = some convert
    | none => ∀ first ∈ registry.implementations.entries,
        ∀ second ∈ registry.implementations.entries,
          first.2.kind = source → second.2.kind = target →
          Promotions.declared? first.2 second.1 second.2 = none := by
  have unfolded : (registry.rebuildPromotions order).promotions.path? source target =
      (Promotions.paths (registry.implementations.entriesIn order) source target).getLast? := rfl
  have declares {convert : Conversion} :
      convert ∈ Promotions.paths (registry.implementations.entriesIn order) source target ↔
        ∃ first ∈ registry.implementations.entries, ∃ second ∈ registry.implementations.entries,
          first.2.kind = source ∧ second.2.kind = target ∧
          Promotions.declared? first.2 second.1 second.2 = some convert := by
    simp only [Promotions.mem_paths_iff, Table.mem_entriesIn]
  rw [unfolded]
  cases last :
      (Promotions.paths (registry.implementations.entriesIn order) source target).getLast? with
  | some convert => exact declares.1 (List.mem_of_getLast? last)
  | none =>
      intro first here second there isSource isTarget
      rw [Option.eq_none_iff_forall_ne_some]
      intro convert found
      have member := declares.2 ⟨first, here, second, there, isSource, isTarget, found⟩
      rw [List.getLast?_eq_none_iff.1 last] at member
      cases member

/-- Where no representation is served twice, the order makes no difference to what is found. -/
theorem implementationFor?_of_unambiguous
    (unambiguous : Unambiguous registry.implementations.entries)
    (order : Traversal NumberImplementation)
    (kind : NumberKind) :
    { registry with order }.implementationFor? kind = registry.implementationFor? kind :=
  (unambiguous.find?_eq fun _ => Table.mem_entriesIn).trans
    (unambiguous.find?_eq fun _ => Table.mem_entriesIn).symm

/-- Where no representation is served twice, the order makes no difference to the conversions. -/
theorem promotions_of_unambiguous
    (unambiguous : Unambiguous registry.implementations.entries)
    (order other : Traversal NumberImplementation) :
    (registry.rebuildPromotions order).promotions = (registry.rebuildPromotions other).promotions :=
  (Promotions.ofImplementations_eq unambiguous fun _ => Table.mem_entriesIn).trans
    (Promotions.ofImplementations_eq unambiguous fun _ => Table.mem_entriesIn).symm

end Registry
end Reckoner
