/-!
# Regular expressions

The shapes that a pattern can take.  A character class is an alternation of single steps.
-/

namespace Reckoner

/-- One character as a pattern sees it. -/
inductive Step
  | exactly (character : Char)
  | between (low high : Char)
  | anything
  deriving DecidableEq, Repr

/-- Whether a step accepts a character. -/
def Step.accepts : Step → Char → Bool
  | .exactly expected, character => expected == character
  | .between low high, character => low ≤ character && character ≤ high
  | .anything, _ => true

@[simp] theorem Step.accepts_exactly (expected character : Char) :
    (Step.exactly expected).accepts character = (expected == character) := rfl

@[simp] theorem Step.accepts_anything (character : Char) :
    Step.anything.accepts character = true := rfl

/-- A pattern that consumes at least one construct. -/
inductive Regex
  | single (step : Step)
  | sequence (first second : Regex)
  | choice (alternatives : List Regex)
  | oneOrMore (body : Regex)
  | zeroOrMore (body : Regex)
  | zeroOrOne (body : Regex)
  deriving Repr

namespace Regex

/-- The items of a sequence, given last to first; `none` when there are none. -/
def ofReversedItems? : List Regex → Option Regex
  | [] => none
  | last :: earlier => some (earlier.foldl (fun later item => .sequence item later) last)

/-- A class of one member is that member; a larger one is the choice between its members. -/
def ofClass : List Step → Regex
  | [member] => .single member
  | members => .choice (members.map .single)

end Regex
end Reckoner
