import Reckoner.Pattern.NodeSet
import Reckoner.Pattern.Regex

/-!
# Automata

The nondeterministic automaton of a regular expression, as a list of numbered nodes.  A node
consumes a character, passes control on without consuming (`link`), or accepts.  `Regex.nodes` lays
a regular expression out from a given number on and is told to which nodes its last node leads, so
that the automaton of a compound is the concatenation of the automata of its parts.
-/

namespace Reckoner

/-- What a node does with the next character. -/
inductive Label
  | consume (step : Step)
  | link
  | accept
  deriving DecidableEq, Repr

/-- Whether a node with this label consumes a character. -/
def Label.consumes : Label → Char → Bool
  | .consume step, character => step.accepts character
  | .link, _ => false
  | .accept, _ => false

/-- A node and the numbers of the nodes to which it leads. -/
structure Node where
  label : Label
  targets : List Nat
  deriving DecidableEq, Repr

namespace Regex

mutual

/-- The number of nodes of a regular expression. -/
def size : Regex → Nat
  | .single _ => 1
  | .sequence first second => first.size + second.size
  | .choice alternatives => sizeAll alternatives + 2
  | .oneOrMore body => body.size
  | .zeroOrMore body => body.size + 2
  | .zeroOrOne body => body.size + 2

/-- The number of nodes of a list of regular expressions. -/
def sizeAll : List Regex → Nat
  | [] => 0
  | first :: rest => first.size + sizeAll rest

end

/-- The number of the node at which a regular expression laid out from `base` is entered. -/
def entry (base : Nat) : Regex → Nat
  | .single _ => base
  | .sequence first _ => first.entry base
  | .choice alternatives => base + sizeAll alternatives
  | .oneOrMore body => body.entry base
  | .zeroOrMore body => base + body.size
  | .zeroOrOne body => base + body.size

/-- The entries of regular expressions laid out one after the other from `base`. -/
def entries (base : Nat) : List Regex → List Nat
  | [] => []
  | first :: rest => first.entry base :: entries (base + first.size) rest

mutual

/-- The nodes of a regular expression laid out from `base`, its last node leading to `next`. -/
def nodes (base : Nat) (next : List Nat) : Regex → List Node
  | .single step => [⟨.consume step, next⟩]
  | .sequence first second =>
      first.nodes base [second.entry (base + first.size)] ++ second.nodes (base + first.size) next
  | .choice alternatives =>
      let fork := base + sizeAll alternatives
      -- the alternatives join in the node behind the fork
      nodesAll base [fork + 1] alternatives ++
        [⟨.link, entries base alternatives⟩, ⟨.link, next⟩]
  | .oneOrMore body => body.nodes base (body.entry base :: next)
  | .zeroOrMore body =>
      let fork := base + body.size
      body.nodes base [fork + 1] ++
        [⟨.link, [body.entry base, fork + 1]⟩, ⟨.link, fork :: next⟩]
  | .zeroOrOne body =>
      let fork := base + body.size
      body.nodes base [fork + 1] ++
        [⟨.link, [body.entry base, fork + 1]⟩, ⟨.link, next⟩]

/-- The nodes of regular expressions laid out one after the other, each leading to `next`. -/
def nodesAll (base : Nat) (next : List Nat) : List Regex → List Node
  | [] => []
  | first :: rest => first.nodes base next ++ nodesAll (base + first.size) next rest

end

end Regex

/-- A nondeterministic automaton with its first node. -/
structure Automaton where
  nodes : Array Node
  start : Nat
  deriving DecidableEq, Repr

namespace Automaton

/-- The automaton of a regular expression; `none` is the empty text alone. -/
def ofRegex : Option Regex → Automaton
  | none => ⟨#[⟨.accept, []⟩], 0⟩
  | some regex =>
      ⟨(regex.nodes 0 [regex.size] ++ [Node.mk .accept []]).toArray, regex.entry 0⟩

/-- The nodes that have not been reached yet. -/
def unreached (automaton : Automaton) (reached : List Nat) : List Nat :=
  (List.range automaton.nodes.size).filter (fun id => !reached.contains id)

theorem unreached_cons_lt
    {automaton : Automaton}
    {reached : List Nat}
    {id : Nat}
    (inside : id < automaton.nodes.size)
    (fresh : reached.contains id = false) :
    (automaton.unreached (id :: reached)).length < (automaton.unreached reached).length := by
  unfold unreached
  have smaller : (List.range automaton.nodes.size).filter
        (fun other => !(id :: reached).contains other) =
      ((List.range automaton.nodes.size).filter (fun other => !reached.contains other)).filter
        (fun other => !(other == id)) := by
    rw [List.filter_filter]
    apply List.filter_congr
    intro other _
    simp only [List.contains_cons]
    cases other == id <;> simp
  rw [smaller]
  apply List.length_filter_lt_length_iff_exists.2
  refine ⟨id, ?_, by simp⟩
  rw [List.mem_filter]
  exact ⟨List.mem_range.2 inside, by simpa using fresh⟩

/-- Extend a set of reached nodes by everything that the pending nodes lead to through links. -/
def extend
    (automaton : Automaton)
    (reached : NodeSet automaton.nodes.size) :
    (pending : List Nat) → NodeSet automaton.nodes.size
  | [] => reached
  | id :: pending =>
      if inside : id < automaton.nodes.size then
        if seen : reached.contains id inside then automaton.extend reached pending
        else
          have := unreached_cons_lt inside (by simpa [reached.contains_iff id inside] using seen)
          match automaton.nodes[id].label with
          -- only links lead on without a character
          | .link =>
              automaton.extend (reached.insert id inside) (automaton.nodes[id].targets ++ pending)
          | _ => automaton.extend (reached.insert id inside) pending
      else automaton.extend reached pending
  termination_by pending => ((automaton.unreached reached.members).length, pending.length)
  decreasing_by
    · exact Prod.Lex.right _ (by simp)
    · exact Prod.Lex.left _ _ (by assumption)
    · exact Prod.Lex.left _ _ (by assumption)
    · exact Prod.Lex.right _ (by simp)

/-- The nodes that some nodes reach without consuming anything, these included. -/
def close (automaton : Automaton) (ids : List Nat) : List Nat :=
  (automaton.extend (.empty automaton.nodes.size) ids).members

/-- The nodes that one node reaches without consuming anything, itself included. -/
def closure (automaton : Automaton) (id : Nat) : List Nat :=
  automaton.close [id]

/-- The nodes that are live before any character has been consumed. -/
def initial (automaton : Automaton) : List Nat :=
  automaton.closure automaton.start

/-- The nodes to which a node leads after it has consumed a character. -/
def successors (automaton : Automaton) (id : Nat) : List Nat :=
  automaton.close ((automaton.nodes[id]?.map Node.targets).getD [])

/-- Where the targets of a live node lie, if the node consumes the character. -/
def targetsOn (automaton : Automaton) (character : Char) (id : Nat) : List Nat :=
  match automaton.nodes[id]? with
  | some node => if node.label.consumes character then node.targets else []
  | none => []

/-- The nodes that are live after a character has been consumed by the live nodes. -/
def advance (automaton : Automaton) (live : List Nat) (character : Char) : List Nat :=
  automaton.close (live.flatMap (automaton.targetsOn character))

/-- Whether one of the live nodes accepts. -/
def acceptsAt (automaton : Automaton) (live : List Nat) : Bool :=
  live.any (fun id => (automaton.nodes[id]?.map Node.label) == some .accept)

/-- Whether the automaton accepts a text as a whole. -/
def accepts (automaton : Automaton) (text : List Char) : Bool :=
  automaton.acceptsAt (text.foldl automaton.advance automaton.initial)

end Automaton
end Reckoner
