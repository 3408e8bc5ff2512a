import Reckoner.Proofs.Pattern.Language
import Reckoner.Proofs.Pattern.Run

/-!
# Recognition of languages

The nodes of a regular expression, laid out anywhere in an automaton, accept from their entry the
texts of the regular expression, each followed by a text that is accepted from one of the nodes to
which they lead.  One direction is a calculation with languages.  The other one counts steps, since
a run may pass through a repetition many times before it leaves it for good.
-/

open scoped Computability

namespace Reckoner
namespace Automaton

variable {automaton : Automaton}

/-- The automaton has the given nodes from a number on. -/
def Holds (automaton : Automaton) (base : Nat) (nodes : List Node) : Prop :=
  ∀ index node, nodes[index]? = some node → automaton.nodes[base + index]? = some node

theorem Holds.left
    {base : Nat}
    {first second : List Node}
    (holds : automaton.Holds base (first ++ second)) :
    automaton.Holds base first := by
  intro index node found
  apply holds index node
  have inside : index < first.length := (List.getElem?_eq_some_iff.1 found).1
  rw [List.getElem?_append_left inside, found]

theorem Holds.right
    {base : Nat}
    {first second : List Node}
    (holds : automaton.Holds base (first ++ second)) :
    automaton.Holds (base + first.length) second := by
  intro index node found
  rw [Nat.add_assoc]
  apply holds (first.length + index) node
  rw [List.getElem?_append_right (Nat.le_add_right _ _), Nat.add_sub_cancel_left, found]

theorem Holds.head
    {base : Nat}
    {node : Node}
    {rest : List Node}
    (holds : automaton.Holds base (node :: rest)) :
    automaton.nodes[base]? = some node :=
  holds 0 node rfl

theorem Holds.tail
    {base : Nat}
    {node : Node}
    {rest : List Node}
    (holds : automaton.Holds base (node :: rest)) :
    automaton.Holds (base + 1) rest := by
  have parts : automaton.Holds base ([node] ++ rest) := holds
  exact parts.right

end Automaton

namespace Regex

mutual

/-- An expression takes as many nodes as its size says. -/
@[simp] theorem length_nodes (base : Nat) (next : List Nat) :
    (regex : Regex) → (regex.nodes base next).length = regex.size
  | .single _ => rfl
  | .sequence first second => by
      simp [nodes, size, length_nodes base _ first, length_nodes (base + first.size) next second]
  | .choice alternatives => by
      simp [nodes, size, length_nodesAll base _ alternatives]
  | .oneOrMore body => by simp [nodes, size, length_nodes base _ body]
  | .zeroOrMore body => by simp [nodes, size, length_nodes base _ body]
  | .zeroOrOne body => by simp [nodes, size, length_nodes base _ body]

@[simp] theorem length_nodesAll (base : Nat) (next : List Nat) :
    (alternatives : List Regex) →
      (nodesAll base next alternatives).length = sizeAll alternatives
  | [] => rfl
  | first :: rest => by
      simp [nodesAll, sizeAll, length_nodes base next first,
        length_nodesAll (base + first.size) next rest]

end

end Regex

namespace Automaton

variable {automaton : Automaton}

/-! ## Languages of nodes -/

/-- The texts that are accepted from a node. -/
def languageFrom (automaton : Automaton) (id : Nat) : Language Char :=
  { text | ∃ steps, automaton.Run steps id text }

/-- The texts that are accepted from one of some nodes. -/
def languageFromAny (automaton : Automaton) (ids : List Nat) : Language Char :=
  { text | ∃ id ∈ ids, ∃ steps, automaton.Run steps id text }

theorem languageFrom_le_languageFromAny
    {id : Nat}
    {ids : List Nat}
    (member : id ∈ ids) :
    automaton.languageFrom id ≤ automaton.languageFromAny ids :=
  fun _ run => ⟨id, member, run⟩

theorem languageFromAny_le_iff {ids : List Nat} {language : Language Char} :
    automaton.languageFromAny ids ≤ language ↔
      ∀ id ∈ ids, automaton.languageFrom id ≤ language := by
  constructor
  · intro le id member text run
    exact le ⟨id, member, run⟩
  · rintro le text ⟨id, member, run⟩
    exact le id member run

/-- More starts accept more. -/
theorem languageFromAny_mono
    {ids others : List Nat}
    (subset : ids ⊆ others) :
    automaton.languageFromAny ids ≤ automaton.languageFromAny others :=
  languageFromAny_le_iff.2 fun _ member => languageFrom_le_languageFromAny (subset member)

/-- A link accepts what its targets accept. -/
theorem languageFromAny_le_languageFrom
    {id : Nat}
    {targets : List Nat}
    (node : automaton.nodes[id]? = some ⟨.link, targets⟩) :
    automaton.languageFromAny targets ≤ automaton.languageFrom id := by
  rintro text ⟨target, member, steps, run⟩
  exact ⟨steps + 1, .link node member run⟩

/-- A step accepts a character and then what its targets accept. -/
theorem step_language_mul_le_languageFrom
    {id : Nat}
    {step : Step}
    {targets : List Nat}
    (node : automaton.nodes[id]? = some ⟨.consume step, targets⟩) :
    step.language * automaton.languageFromAny targets ≤ automaton.languageFrom id := by
  intro text member
  obtain ⟨_, ⟨character, accepts, rfl⟩, rest, ⟨target, present, steps, run⟩, rfl⟩ :=
    Language.mem_mul.1 member
  exact ⟨steps + 1, .consume node accepts present run⟩

theorem languageFromAny_singleton (id : Nat) :
    automaton.languageFromAny [id] = automaton.languageFrom id :=
  le_antisymm (languageFromAny_le_iff.2 (by simp))
    (languageFrom_le_languageFromAny (List.mem_singleton_self id))

theorem languageFrom_le_link
    {id target : Nat}
    {targets : List Nat}
    (node : automaton.nodes[id]? = some ⟨.link, targets⟩)
    (member : target ∈ targets) :
    automaton.languageFrom target ≤ automaton.languageFrom id :=
  (languageFrom_le_languageFromAny member).trans (languageFromAny_le_languageFrom node)

mutual

/-- Every text of a regular expression that is followed by a text accepted further on is accepted
from the entry of the regular expression. -/
theorem language_mul_le_languageFrom (base : Nat) (next : List Nat) :
    (regex : Regex) → automaton.Holds base (regex.nodes base next) →
      regex.language * automaton.languageFromAny next ≤ automaton.languageFrom (regex.entry base)
  | .single step, holds => step_language_mul_le_languageFrom holds.head
  | .sequence first second, holds => by
      rw [Regex.nodes] at holds
      have firstHolds := language_mul_le_languageFrom base _ first holds.left
      have secondHolds := language_mul_le_languageFrom (base + first.size) next second
        (by simpa using holds.right)
      rw [languageFromAny_singleton] at firstHolds
      rw [Regex.language_sequence, mul_assoc]
      exact (mul_le_mul_right secondHolds _).trans firstHolds
  | .choice alternatives, holds => by
      rw [Regex.nodes] at holds
      have inner := languageOfAny_mul_le_languageFromAny base _ alternatives holds.left
      have links := holds.right
      rw [Regex.length_nodesAll] at links
      have join := languageFromAny_le_languageFrom links.tail.head
      have fork := languageFromAny_le_languageFrom links.head
      rw [languageFromAny_singleton] at inner
      rw [Regex.language_choice]
      exact ((mul_le_mul_right join _).trans inner).trans fork
  | .oneOrMore body, holds => by
      rw [Regex.nodes] at holds
      have inner := language_mul_le_languageFrom base _ body holds
      have again : automaton.languageFrom (body.entry base) ≤
          automaton.languageFromAny (body.entry base :: next) :=
        languageFrom_le_languageFromAny List.mem_cons_self
      have leave : automaton.languageFromAny next ≤
          automaton.languageFromAny (body.entry base :: next) :=
        languageFromAny_mono (List.subset_cons_self _ _)
      rw [Regex.language_oneOrMore, mul_assoc]
      exact (mul_le_mul_right (kstar_mul_le leave (inner.trans again)) _).trans inner
  | .zeroOrMore body, holds => by
      rw [Regex.nodes] at holds
      have inner := language_mul_le_languageFrom base _ body holds.left
      have links := holds.right
      rw [Regex.length_nodes] at links
      have enter := languageFrom_le_link links.head List.mem_cons_self
      have skip := languageFrom_le_link links.head (List.mem_cons_of_mem _ List.mem_cons_self)
      have again := languageFrom_le_link links.tail.head List.mem_cons_self
      have leave := (languageFromAny_le_languageFrom links.tail.head).trans skip
      rw [languageFromAny_singleton] at inner
      rw [Regex.language_zeroOrMore]
      exact kstar_mul_le ((languageFromAny_mono (List.subset_cons_self _ _)).trans leave)
        (((mul_le_mul_right again _).trans inner).trans enter)
  | .zeroOrOne body, holds => by
      rw [Regex.nodes] at holds
      have inner := language_mul_le_languageFrom base _ body holds.left
      have links := holds.right
      rw [Regex.length_nodes] at links
      have enter := languageFrom_le_link links.head List.mem_cons_self
      have skip := languageFrom_le_link links.head (List.mem_cons_of_mem _ List.mem_cons_self)
      have leave := languageFromAny_le_languageFrom links.tail.head
      rw [languageFromAny_singleton] at inner
      rw [Regex.language_zeroOrOne, add_mul, one_mul]
      exact add_le (leave.trans skip) (((mul_le_mul_right leave _).trans inner).trans enter)

/-- The nodes of alternatives accept what an alternative and the following nodes accept. -/
theorem languageOfAny_mul_le_languageFromAny (base : Nat) (next : List Nat) :
    (alternatives : List Regex) → automaton.Holds base (Regex.nodesAll base next alternatives) →
      Regex.languageOfAny alternatives * automaton.languageFromAny next ≤
        automaton.languageFromAny (Regex.entries base alternatives)
  | [], _ => by
      rw [Regex.languageOfAny_nil, zero_mul]
      exact bot_le
  | first :: rest, holds => by
      rw [Regex.nodesAll] at holds
      have firstLe := language_mul_le_languageFrom base next first holds.left
      have restLe := languageOfAny_mul_le_languageFromAny (base + first.size) next rest
        (by simpa using holds.right)
      rw [Regex.languageOfAny_cons, add_mul, Regex.entries]
      exact add_le (firstLe.trans (languageFrom_le_languageFromAny List.mem_cons_self))
        (restLe.trans (languageFromAny_mono (List.subset_cons_self _ _)))

end

/-! ## Splitting runs -/

/-- A text of a language is followed by a text that a run of fewer steps accepts from one of some
nodes. -/
def Splits
    (automaton : Automaton)
    (language : Language Char)
    (next : List Nat)
    (steps : Nat)
    (text : List Char) : Prop :=
  ∃ first ∈ language, ∃ rest, first ++ rest = text ∧
    ∃ target ∈ next, ∃ fewer < steps, automaton.Run fewer target rest

namespace Splits

/-- A run from one of the nodes themselves. -/
theorem here
    {next : List Nat}
    {target fewer steps : Nat}
    {text : List Char}
    (member : target ∈ next)
    (less : fewer < steps)
    (run : automaton.Run fewer target text) :
    automaton.Splits 1 next steps text :=
  ⟨[], Language.nil_mem_one, text, rfl, target, member, fewer, less, run⟩

/-- A split stays one for a larger language and more steps. -/
theorem mono
    {language larger : Language Char}
    {next : List Nat}
    {steps more : Nat}
    {text : List Char}
    (splits : automaton.Splits language next steps text)
    (le : language ≤ larger)
    (bound : steps ≤ more) :
    automaton.Splits larger next more text := by
  obtain ⟨first, member, rest, same, target, present, fewer, less, run⟩ := splits
  exact ⟨first, le member, rest, same, target, present, fewer, less.trans_le bound, run⟩

/-- What is left of a text can be split further. -/
theorem bind
    {language second : Language Char}
    {middle next : List Nat}
    {steps : Nat}
    {text : List Char}
    (splits : automaton.Splits language middle steps text)
    (further : ∀ target ∈ middle, ∀ fewer < steps, ∀ rest, automaton.Run fewer target rest →
      automaton.Splits second next steps rest) :
    automaton.Splits (language * second) next steps text := by
  obtain ⟨first, member, rest, rfl, target, present, fewer, less, run⟩ := splits
  obtain ⟨middleText, found, last, rfl, final, leads, fewest, least, remaining⟩ :=
    further target present fewer less rest run
  exact ⟨first ++ middleText, Language.append_mem_mul member found, last,
    List.append_assoc first middleText last, final, leads, fewest, least, remaining⟩

end Splits

/-- A run from a link goes on from one of its targets. -/
theorem Run.splits_link
    {steps id : Nat}
    {targets : List Nat}
    {text : List Char}
    (node : automaton.nodes[id]? = some ⟨.link, targets⟩)
    (run : automaton.Run steps id text) :
    automaton.Splits 1 targets steps text := by
  cases run with
  | accept other => simp [node] at other
  | link other member rest =>
      obtain rfl : targets = _ := by simpa [node] using other
      exact .here member (Nat.lt_succ_self _) rest
  | consume other _ _ _ => simp [node] at other

/-- A run from a step takes one character. -/
theorem Run.splits_consume
    {steps id : Nat}
    {step : Step}
    {targets : List Nat}
    {text : List Char}
    (node : automaton.nodes[id]? = some ⟨.consume step, targets⟩)
    (run : automaton.Run steps id text) :
    automaton.Splits step.language targets steps text := by
  cases run with
  | accept other => simp [node] at other
  | link other _ _ => simp [node] at other
  | @consume steps _ target _ rest _ character other accepts member remaining =>
      obtain ⟨rfl, rfl⟩ : step = _ ∧ targets = _ := by simpa [node] using other
      exact ⟨[character], ⟨character, accepts, rfl⟩, rest, rfl, target, member, steps,
        Nat.lt_succ_self _, remaining⟩

/-- A run through a body that leads back to its own entry splits into rounds.  Every round takes at
least a step, so the rounds end. -/
theorem splits_of_rounds
    {language : Language Char}
    {entry : Nat}
    {next : List Nat}
    (round : ∀ steps text, automaton.Run steps entry text →
      automaton.Splits language (entry :: next) steps text)
    (steps : Nat) :
    ∀ text, automaton.Run steps entry text →
      automaton.Splits (language * language∗) next steps text := by
  induction steps using Nat.strong_induction_on with
  | _ steps hypothesis =>
      intro text run
      apply (round steps text run).bind
      intro target member fewer less rest remaining
      rcases List.mem_cons.1 member with rfl | leaves
      · exact (hypothesis fewer less rest remaining).mono mul_kstar_le_kstar less.le
      · exact (Splits.here leaves less remaining).mono one_le_kstar le_rfl

/-- A run through a body between a fork, at which the body can be entered or skipped, and a join,
which leads back to the fork, splits into rounds. -/
theorem splits_of_optional_rounds
    {language : Language Char}
    {entry fork join : Nat}
    {next : List Nat}
    (forkNode : automaton.nodes[fork]? = some ⟨.link, [entry, join]⟩)
    (joinNode : automaton.nodes[join]? = some ⟨.link, fork :: next⟩)
    (round : ∀ steps text, automaton.Run steps entry text →
      automaton.Splits language [join] steps text)
    (steps : Nat) :
    ∀ text, automaton.Run steps fork text → automaton.Splits language∗ next steps text := by
  induction steps using Nat.strong_induction_on with
  | _ steps hypothesis =>
      have joined : ∀ fewer < steps, ∀ rest, automaton.Run fewer join rest →
          automaton.Splits language∗ next steps rest := by
        intro fewer less rest run
        rw [← one_mul language∗]
        apply ((run.splits_link joinNode).mono le_rfl less.le).bind
        intro target member fewest least last remaining
        rcases List.mem_cons.1 member with rfl | leaves
        · exact (hypothesis fewest least last remaining).mono le_rfl least.le
        · exact (Splits.here leaves least remaining).mono one_le_kstar le_rfl
      intro text run
      rw [← one_mul language∗]
      apply (run.splits_link forkNode).bind
      intro target member fewer less rest remaining
      rcases List.mem_cons.1 member with rfl | skips
      · refine Splits.mono ?_ mul_kstar_le_kstar le_rfl
        apply ((round fewer rest remaining).mono le_rfl less.le).bind
        intro target member fewest least last further
        obtain rfl := List.mem_singleton.1 member
        exact joined fewest least last further
      · obtain rfl := List.mem_singleton.1 skips
        exact joined fewer less rest remaining

mutual

/-- A run from the entry of a regular expression splits off a text of the regular expression. -/
theorem splits_of_run (base : Nat) (next : List Nat) :
    (regex : Regex) → automaton.Holds base (regex.nodes base next) → ∀ steps text,
      automaton.Run steps (regex.entry base) text →
        automaton.Splits regex.language next steps text
  | .single step, holds, steps, text, run => run.splits_consume holds.head
  | .sequence first second, holds, steps, text, run => by
      rw [Regex.nodes] at holds
      rw [Regex.language_sequence]
      apply (splits_of_run base _ first holds.left steps text run).bind
      intro target member fewer less rest remaining
      obtain rfl := List.mem_singleton.1 member
      exact (splits_of_run (base + first.size) next second (by simpa using holds.right)
        fewer rest remaining).mono le_rfl less.le
  | .choice alternatives, holds, steps, text, run => by
      rw [Regex.nodes] at holds
      have links := holds.right
      rw [Regex.length_nodesAll] at links
      rw [Regex.language_choice, ← one_mul (Regex.languageOfAny alternatives)]
      apply (run.splits_link links.head).bind
      intro target member fewer less rest remaining
      rw [← mul_one (Regex.languageOfAny alternatives)]
      apply ((splits_of_run_any base _ alternatives holds.left target member fewer rest
        remaining).mono le_rfl less.le).bind
      intro target member fewest least last further
      obtain rfl := List.mem_singleton.1 member
      exact (further.splits_link links.tail.head).mono le_rfl least.le
  | .oneOrMore body, holds, steps, text, run => by
      rw [Regex.nodes] at holds
      rw [Regex.language_oneOrMore]
      exact splits_of_rounds (splits_of_run base _ body holds) steps text run
  | .zeroOrMore body, holds, steps, text, run => by
      rw [Regex.nodes] at holds
      have links := holds.right
      rw [Regex.length_nodes] at links
      rw [Regex.language_zeroOrMore]
      exact splits_of_optional_rounds links.head links.tail.head
        (splits_of_run base _ body holds.left) steps text run
  | .zeroOrOne body, holds, steps, text, run => by
      rw [Regex.nodes] at holds
      have links := holds.right
      rw [Regex.length_nodes] at links
      rw [Regex.language_zeroOrOne, ← one_mul (1 + body.language)]
      apply (run.splits_link links.head).bind
      intro target member fewer less rest remaining
      rcases List.mem_cons.1 member with rfl | skips
      · rw [← mul_one (1 + body.language)]
        apply ((splits_of_run base _ body holds.left fewer rest remaining).mono
          le_add_self less.le).bind
        intro target member fewest least last further
        obtain rfl := List.mem_singleton.1 member
        exact (further.splits_link links.tail.head).mono le_rfl least.le
      · obtain rfl := List.mem_singleton.1 skips
        exact (remaining.splits_link links.tail.head).mono le_self_add less.le

/-- A run through alternatives splits behind one of them. -/
theorem splits_of_run_any (base : Nat) (next : List Nat) :
    (alternatives : List Regex) → automaton.Holds base (Regex.nodesAll base next alternatives) →
      ∀ entry ∈ Regex.entries base alternatives, ∀ steps text, automaton.Run steps entry text →
        automaton.Splits (Regex.languageOfAny alternatives) next steps text
  | [], _, entry, member, steps, text, run => by simp [Regex.entries] at member
  | first :: rest, holds, entry, member, steps, text, run => by
      rw [Regex.nodesAll] at holds
      rw [Regex.languageOfAny_cons]
      rcases List.mem_cons.1 member with rfl | later
      · exact (splits_of_run base next first holds.left steps text run).mono le_self_add le_rfl
      · exact (splits_of_run_any (base + first.size) next rest (by simpa using holds.right)
          entry later steps text run).mono le_add_self le_rfl

end

/-! ## The whole automaton -/

/-- The automaton of an expression has its nodes and an accepting one. -/
theorem holds_ofRegex (regex : Regex) :
    (ofRegex (some regex)).Holds 0 (regex.nodes 0 [regex.size] ++ [Node.mk .accept []]) := by
  intro index node found
  simpa [ofRegex] using found

theorem languageFrom_accept
    {id : Nat}
    {targets : List Nat}
    (node : automaton.nodes[id]? = some ⟨.accept, targets⟩) :
    automaton.languageFrom id = 1 := by
  ext text
  rw [Language.mem_one]
  constructor
  · rintro ⟨steps, run⟩
    cases run with
    | accept _ => rfl
    | link other _ _ => simp [node] at other
    | consume other _ _ _ => simp [node] at other
  · rintro rfl
    exact ⟨0, .accept node⟩

/-- The automaton of an expression accepts its language. -/
theorem languageFrom_start_ofRegex (regex : Option Regex) :
    (ofRegex regex).languageFrom (ofRegex regex).start = Regex.languageOfOption regex := by
  cases regex with
  | none =>
      have node : (ofRegex none).nodes[0]? = some ⟨.accept, []⟩ := rfl
      exact languageFrom_accept node
  | some regex =>
      have holds := holds_ofRegex regex
      have last := holds.right.head
      rw [Regex.length_nodes, Nat.zero_add] at last
      have accepting := languageFrom_accept last
      apply le_antisymm
      · rintro text ⟨steps, run⟩
        obtain ⟨first, member, rest, rfl, target, present, fewer, _, remaining⟩ :=
          splits_of_run 0 _ regex holds.left steps text run
        obtain rfl := List.mem_singleton.1 present
        have ends : rest ∈ (ofRegex (some regex)).languageFrom regex.size := ⟨fewer, remaining⟩
        rw [accepting, Language.mem_one] at ends
        rw [ends, List.append_nil]
        exact member
      · have inner := language_mul_le_languageFrom 0 _ regex holds.left
        rw [languageFromAny_singleton, accepting, mul_one] at inner
        exact inner

/-- The automaton of a regular expression accepts exactly its texts. -/
theorem accepts_ofRegex_iff (regex : Option Regex) (text : List Char) :
    (ofRegex regex).accepts text = true ↔ text ∈ Regex.languageOfOption regex := by
  rw [accepts_iff_run, ← languageFrom_start_ofRegex]
  rfl

end Automaton
end Reckoner
