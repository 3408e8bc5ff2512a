import Reckoner.Pattern.Automaton
import Mathlib

/-!
# Runs of automata

A run follows one path through an automaton from a node to an accepting node, while the automaton
itself keeps the set of all live nodes.  The two accept the same texts: the live nodes are closed
under links, and a node is live exactly when some path leads to it.
-/

namespace Reckoner
namespace Automaton

variable {automaton : Automaton}

/-- A link leads from one node to another. -/
def Links (automaton : Automaton) (id target : Nat) : Prop :=
  ∃ targets, automaton.nodes[id]? = some ⟨.link, targets⟩ ∧ target ∈ targets

/-- Links lead from one node to another in any number of steps. -/
def Reaches (automaton : Automaton) : Nat → Nat → Prop :=
  Relation.ReflTransGen automaton.Links

/-- The links of the nodes in one list that lie in the automaton lead to nodes of either list. -/
def ClosedUpTo (automaton : Automaton) (reached pending : List Nat) : Prop :=
  ∀ id ∈ reached, ∀ target, automaton.Links id target → target < automaton.nodes.size →
    target ∈ reached ∨ target ∈ pending

/-- A step of the walk: what was pending is pending no more, but its own targets are. -/
theorem ClosedUpTo.insert
    {reached pending targets : List Nat}
    {id : Nat}
    (closed : automaton.ClosedUpTo reached (id :: pending))
    (covers : ∀ target, automaton.Links id target → target ∈ targets) :
    automaton.ClosedUpTo (id :: reached) (targets ++ pending) := by
  intro source member target links inside
  rcases List.mem_cons.1 member with rfl | earlier
  · exact Or.inr (List.mem_append_left pending (covers target links))
  · rcases closed source earlier target links inside with found | waiting
    · exact Or.inl (List.mem_cons_of_mem id found)
    · rcases List.mem_cons.1 waiting with rfl | later
      · exact Or.inl List.mem_cons_self
      · exact Or.inr (List.mem_append_right targets later)

/-- A step of the walk over a node that has been reached before or lies outside. -/
theorem ClosedUpTo.skip
    {reached pending : List Nat}
    {id : Nat}
    (closed : automaton.ClosedUpTo reached (id :: pending))
    (known : id < automaton.nodes.size → id ∈ reached) :
    automaton.ClosedUpTo reached pending := by
  intro source member target links inside
  rcases closed source member target links inside with found | waiting
  · exact Or.inl found
  · rcases List.mem_cons.1 waiting with rfl | later
    · exact Or.inl (known inside)
    · exact Or.inr later

theorem links_iff_mem_targets
    {id : Nat}
    (inside : id < automaton.nodes.size)
    (label : automaton.nodes[id].label = .link)
    (target : Nat) :
    automaton.Links id target ↔ target ∈ automaton.nodes[id].targets := by
  unfold Links
  rw [Array.getElem?_eq_getElem inside]
  constructor
  · rintro ⟨targets, same, member⟩
    rw [Option.some.inj same]
    exact member
  · intro member
    exact ⟨_, by rw [← label], member⟩

theorem not_links
    {id : Nat}
    (inside : id < automaton.nodes.size)
    (label : automaton.nodes[id].label ≠ .link)
    (target : Nat) :
    ¬automaton.Links id target := by
  rintro ⟨targets, same, _⟩
  rw [Array.getElem?_eq_getElem inside] at same
  exact label (by rw [Option.some.inj same])

/-- An extension keeps what was reached. -/
theorem mem_extend_of_mem
    {reached : NodeSet automaton.nodes.size}
    {pending : List Nat}
    {id : Nat}
    (member : id ∈ reached.members) :
    id ∈ (automaton.extend reached pending).members := by
  fun_induction automaton.extend reached pending with
  | case1 reached => exact member
  | case2 reached other pending inside seen hypothesis => exact hypothesis member
  | case3 reached other pending inside fresh _ label hypothesis
  | case4 reached other pending inside fresh _ label hypothesis =>
      apply hypothesis
      rw [NodeSet.members_insert]
      exact List.mem_cons_of_mem other member
  | case5 reached other pending outside hypothesis => exact hypothesis member

/-- An extension reaches what was pending. -/
theorem mem_extend_of_mem_pending
    {reached : NodeSet automaton.nodes.size}
    {pending : List Nat}
    {id : Nat}
    (member : id ∈ pending)
    (within : id < automaton.nodes.size) :
    id ∈ (automaton.extend reached pending).members := by
  fun_induction automaton.extend reached pending with
  | case1 reached => simp at member
  | case2 reached other pending inside seen hypothesis =>
      rcases List.mem_cons.1 member with rfl | later
      · exact mem_extend_of_mem ((reached.contains_iff id inside).1 seen)
      · exact hypothesis later
  | case3 reached other pending inside fresh _ label hypothesis =>
      rcases List.mem_cons.1 member with rfl | later
      · apply mem_extend_of_mem
        rw [NodeSet.members_insert]
        exact List.mem_cons_self
      · exact hypothesis (List.mem_append_right _ later)
  | case4 reached other pending inside fresh _ label hypothesis =>
      rcases List.mem_cons.1 member with rfl | later
      · apply mem_extend_of_mem
        rw [NodeSet.members_insert]
        exact List.mem_cons_self
      · exact hypothesis later
  | case5 reached other pending outside hypothesis =>
      rcases List.mem_cons.1 member with rfl | later
      · exact absurd within outside
      · exact hypothesis later

/-- The walk ends when nothing is pending, so what it has reached is closed under links. -/
theorem closedUpTo_extend
    {reached : NodeSet automaton.nodes.size}
    {pending : List Nat}
    (closed : automaton.ClosedUpTo reached.members pending) :
    automaton.ClosedUpTo (automaton.extend reached pending).members [] := by
  fun_induction automaton.extend reached pending with
  | case1 reached => exact closed
  | case2 reached id pending inside seen hypothesis =>
      exact hypothesis (closed.skip fun _ => (reached.contains_iff id inside).1 seen)
  | case3 reached id pending inside fresh _ label hypothesis =>
      apply hypothesis
      exact closed.insert fun target links => (links_iff_mem_targets inside label target).1 links
  | case4 reached id pending inside fresh _ label hypothesis =>
      have inserted : automaton.ClosedUpTo (id :: reached.members) ([] ++ pending) :=
        closed.insert fun target links => absurd links (not_links inside label target)
      exact hypothesis inserted
  | case5 reached id pending outside hypothesis =>
      exact hypothesis (closed.skip fun inside => absurd inside outside)

/-- The walk reaches nothing but what links lead to. -/
theorem reaches_of_mem_extend
    {reached : NodeSet automaton.nodes.size}
    {pending : List Nat}
    {id : Nat}
    (member : id ∈ (automaton.extend reached pending).members) :
    id ∈ reached.members ∨
      id < automaton.nodes.size ∧ ∃ start ∈ pending, automaton.Reaches start id := by
  fun_induction automaton.extend reached pending with
  | case1 reached => exact Or.inl member
  | case2 reached other pending inside seen hypothesis =>
      rcases hypothesis member with found | ⟨within, start, later, reaches⟩
      · exact Or.inl found
      · exact Or.inr ⟨within, start, List.mem_cons_of_mem other later, reaches⟩
  | case3 reached other pending inside fresh _ label hypothesis =>
      rcases hypothesis member with found | ⟨within, start, later, reaches⟩
      · rcases List.mem_cons.1 found with rfl | earlier
        · exact Or.inr ⟨inside, id, List.mem_cons_self, .refl⟩
        · exact Or.inl earlier
      · refine Or.inr ⟨within, ?_⟩
        rcases List.mem_append.1 later with target | later
        · have links := (links_iff_mem_targets inside label start).2 target
          exact ⟨other, List.mem_cons_self, .head links reaches⟩
        · exact ⟨start, List.mem_cons_of_mem other later, reaches⟩
  | case4 reached other pending inside fresh _ label hypothesis =>
      rcases hypothesis member with found | ⟨within, start, later, reaches⟩
      · rcases List.mem_cons.1 found with rfl | earlier
        · exact Or.inr ⟨inside, id, List.mem_cons_self, .refl⟩
        · exact Or.inl earlier
      · exact Or.inr ⟨within, start, List.mem_cons_of_mem other later, reaches⟩
  | case5 reached other pending outside hypothesis =>
      rcases hypothesis member with found | ⟨within, start, later, reaches⟩
      · exact Or.inl found
      · exact Or.inr ⟨within, start, List.mem_cons_of_mem other later, reaches⟩

/-- What is closed has nothing left to follow. -/
theorem closedUpTo_close (automaton : Automaton) (ids : List Nat) :
    automaton.ClosedUpTo (automaton.close ids) [] :=
  closedUpTo_extend fun id member => by simp [NodeSet.members_empty] at member

/-- A closure has the nodes it starts from. -/
theorem mem_close_of_mem
    {ids : List Nat}
    {id : Nat}
    (member : id ∈ ids)
    (within : id < automaton.nodes.size) :
    id ∈ automaton.close ids :=
  mem_extend_of_mem_pending member within

/-- A closure has only what is reached from its start. -/
theorem reaches_of_mem_close
    {ids : List Nat}
    {id : Nat}
    (member : id ∈ automaton.close ids) :
    ∃ start ∈ ids, automaton.Reaches start id := by
  rcases reaches_of_mem_extend member with found | ⟨_, reached⟩
  · simp [NodeSet.members_empty] at found
  · exact reached

/-! ## Runs -/

/-- From a node, some path of the given number of steps consumes a text and ends in acceptance. -/
inductive Run (automaton : Automaton) : Nat → Nat → List Char → Prop
  | accept {id : Nat} {targets : List Nat}
      (node : automaton.nodes[id]? = some ⟨.accept, targets⟩) :
      Run automaton 0 id []
  | link {steps id target : Nat} {targets : List Nat} {text : List Char}
      (node : automaton.nodes[id]? = some ⟨.link, targets⟩)
      (member : target ∈ targets)
      (rest : Run automaton steps target text) :
      Run automaton (steps + 1) id text
  | consume {steps id target : Nat} {targets : List Nat} {text : List Char}
      {step : Step} {character : Char}
      (node : automaton.nodes[id]? = some ⟨.consume step, targets⟩)
      (accepts : step.accepts character = true)
      (member : target ∈ targets)
      (rest : Run automaton steps target text) :
      Run automaton (steps + 1) id (character :: text)

namespace Run

theorem within
    {steps id : Nat}
    {text : List Char}
    (run : automaton.Run steps id text) :
    id < automaton.nodes.size := by
  cases run with
  | accept node | link node _ _ | consume node _ _ _ =>
      exact (Array.getElem?_eq_some_iff.1 node).1

/-- A run can be entered from every node from which links lead to its first node. -/
theorem of_reaches
    {start id steps : Nat}
    {text : List Char}
    (reaches : automaton.Reaches start id)
    (run : automaton.Run steps id text) :
    ∃ steps, automaton.Run steps start text := by
  induction reaches using Relation.ReflTransGen.head_induction_on with
  | refl => exact ⟨steps, run⟩
  | head links _ hypothesis =>
      obtain ⟨targets, node, member⟩ := links
      obtain ⟨more, rest⟩ := hypothesis
      exact ⟨more + 1, .link node member rest⟩

/-- Within a set closed under links, a run stays until it accepts or consumes a character. -/
theorem leave
    {live : List Nat}
    (closed : automaton.ClosedUpTo live [])
    {steps id : Nat}
    {text : List Char}
    (run : automaton.Run steps id text)
    (member : id ∈ live) :
    text = [] ∧ automaton.acceptsAt live = true ∨
      ∃ character rest, text = character :: rest ∧
        ∃ target ∈ live.flatMap (automaton.targetsOn character),
          ∃ steps, automaton.Run steps target rest := by
  induction run with
  | @accept id targets node =>
      refine Or.inl ⟨rfl, ?_⟩
      simp only [acceptsAt, List.any_eq_true]
      exact ⟨id, member, by simp [node]⟩
  | @link steps id target targets text node present rest hypothesis =>
      rcases closed id member target ⟨targets, node, present⟩ rest.within with found | waiting
      · exact hypothesis found
      · simp at waiting
  | @consume steps id target targets text step character node accepts present rest _ =>
      refine Or.inr ⟨character, text, rfl, target, ?_, steps, rest⟩
      rw [List.mem_flatMap]
      exact ⟨id, member, by simpa [targetsOn, node, Label.consumes, accepts] using present⟩

/-- A run from a target of a node that consumes a character extends to a run from that node. -/
theorem of_targetsOn
    {steps id target : Nat}
    {text : List Char}
    {character : Char}
    (member : target ∈ automaton.targetsOn character id)
    (run : automaton.Run steps target text) :
    automaton.Run (steps + 1) id (character :: text) := by
  unfold targetsOn at member
  split at member
  next node found =>
    split at member
    next consumes =>
      obtain ⟨label, targets⟩ := node
      cases label with
      | consume step => exact .consume found consumes member run
      | link | accept => simp [Label.consumes] at consumes
    next => simp at member
  next => simp at member

end Run

/-- The live nodes of the automaton accept what some run from one of them accepts. -/
theorem acceptsAt_foldl_advance_iff
    (text : List Char)
    {live : List Nat}
    (closed : automaton.ClosedUpTo live []) :
    automaton.acceptsAt (text.foldl automaton.advance live) = true ↔
      ∃ id ∈ live, ∃ steps, automaton.Run steps id text := by
  induction text generalizing live with
  | nil =>
      constructor
      · intro accepting
        simp only [List.foldl_nil, acceptsAt, List.any_eq_true] at accepting
        obtain ⟨id, member, label⟩ := accepting
        obtain ⟨⟨_, targets⟩, node, rfl⟩ := Option.map_eq_some_iff.1 (beq_iff_eq.1 label)
        exact ⟨id, member, 0, .accept node⟩
      · rintro ⟨id, member, steps, run⟩
        rcases run.leave closed member with ⟨_, accepting⟩ | ⟨_, _, impossible, _⟩
        · exact accepting
        · simp at impossible
  | cons character rest hypothesis =>
      have next : automaton.ClosedUpTo (automaton.advance live character) [] :=
        closedUpTo_close automaton _
      rw [List.foldl_cons, hypothesis next]
      constructor
      · rintro ⟨id, member, steps, run⟩
        obtain ⟨target, targeted, reaches⟩ := reaches_of_mem_close member
        obtain ⟨source, live, present⟩ := List.mem_flatMap.1 targeted
        obtain ⟨more, earlier⟩ := Run.of_reaches reaches run
        exact ⟨source, live, more + 1, .of_targetsOn present earlier⟩
      · rintro ⟨id, member, steps, run⟩
        rcases run.leave closed member with
          ⟨impossible, _⟩ | ⟨_, _, same, target, targeted, more, later⟩
        · simp at impossible
        · obtain ⟨rfl, rfl⟩ := List.cons.inj same
          exact ⟨target, mem_close_of_mem targeted later.within, more, later⟩

/-- An automaton accepts the texts of the runs from its first node. -/
theorem accepts_iff_run (automaton : Automaton) (text : List Char) :
    automaton.accepts text = true ↔ ∃ steps, automaton.Run steps automaton.start text := by
  have closed : automaton.ClosedUpTo automaton.initial [] :=
    closedUpTo_close automaton [automaton.start]
  rw [accepts, acceptsAt_foldl_advance_iff text closed]
  constructor
  · rintro ⟨id, member, steps, run⟩
    obtain ⟨start, only, reaches⟩ := reaches_of_mem_close member
    rw [List.mem_singleton] at only
    subst only
    exact Run.of_reaches reaches run
  · rintro ⟨steps, run⟩
    exact ⟨automaton.start, mem_close_of_mem (List.mem_singleton_self _) run.within, steps, run⟩

end Automaton
end Reckoner
