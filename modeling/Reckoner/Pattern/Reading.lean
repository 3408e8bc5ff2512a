import Reckoner.Pattern.Regex

/-!
# Reading patterns

The source text of a pattern and the regular expression that it denotes.

| Source   | Meaning                           |
|----------|-----------------------------------|
| `c`      | the character itself              |
| `\c`     | the character, whatever it means  |
| `.`      | any character                     |
| `[ab-d]` | one of some characters or ranges  |
| `(r)`    | grouping                          |
| `r|s`    | one of two                        |
| `r+`     | one or more                       |
| `r*`     | zero or more                      |
| `r?`     | zero or one                       |

The empty source denotes the empty text alone.  A fault names the position, counted in characters,
at which a source stops making sense.
-/

namespace Reckoner

/-- The ways in which the source of a pattern can be malformed. -/
inductive PatternFault
  | danglingQuantifier (position : Nat)
  | emptyAlternative (position : Nat)
  | unclosedGroup (position : Nat)
  | unmatchedClose (position : Nat)
  | emptyGroup (position : Nat)
  | unclosedClass (position : Nat)
  | emptyClass (position : Nat)
  | invalidRange (position : Nat)
  | trailingEscape
  deriving DecidableEq, Repr

namespace PatternFault

/-- The wording of a fault. -/
def message : PatternFault → String
  | .danglingQuantifier position =>
      "quantifier at " ++ toString position ++ " has nothing to repeat"
  | .emptyAlternative position => "empty alternative near " ++ toString position
  | .unclosedGroup position => "group opened at " ++ toString position ++ " is never closed"
  | .unmatchedClose position => "unmatched ')' at " ++ toString position
  | .emptyGroup position => "empty group at " ++ toString position
  | .unclosedClass position => "class opened at " ++ toString position ++ " is never closed"
  | .emptyClass position => "empty class at " ++ toString position
  | .invalidRange position => "invalid range at " ++ toString position
  | .trailingEscape => "escape at end of pattern"

end PatternFault

namespace Regex

/-- What has been read of a group: the finished alternatives, then the finished items of the
current alternative, both last to first, then the item that a quantifier would still apply to. -/
structure Partial where
  alternatives : List Regex
  items : List Regex
  current : Option Regex

namespace Partial

/-- Nothing has been read yet. -/
def empty : Partial :=
  ⟨[], [], none⟩

/-- The current alternative, with its last item. -/
def branch? (group : Partial) : Option Regex :=
  ofReversedItems? (group.current.toList ++ group.items)

/-- Start a new item; the one before it can no longer be quantified. -/
def push (group : Partial) (item : Regex) : Partial :=
  ⟨group.alternatives, group.current.toList ++ group.items, some item⟩

/-- The regular expression of a whole group: `none` when it is empty, and a failure when it has
several alternatives and the last of them is empty. -/
def close (group : Partial) (fault : PatternFault) : Except PatternFault (Option Regex) :=
  match group.alternatives, group.branch? with
  | [], branch => .ok branch
  | _ :: _, none => .error fault
  | alternatives, some branch => .ok (some (.choice (alternatives.reverse ++ [branch])))

end Partial

/-- The quantifier that a character stands for. -/
def quantifier? : Char → Option (Regex → Regex)
  | '+' => some .oneOrMore
  | '*' => some .zeroOrMore
  | '?' => some .zeroOrOne
  | _ => none

/-- The remaining source after a construct that was read from `source`. -/
abbrev Rest (source : List Char) :=
  { rest : List Char // rest.length < source.length }

/-- One character of a class, an escape included. -/
def readMember (unclosed : PatternFault) :
    (source : List Char) → Except PatternFault (Char × Rest source)
  | [] => .error unclosed
  | '\\' :: [] => .error .trailingEscape
  | '\\' :: character :: rest => .ok (character, ⟨rest, by simp only [List.length_cons]; omega⟩)
  | character :: rest => .ok (character, ⟨rest, by simp⟩)

/-- The members of a class up to its closing bracket.  `members` are the ones read so far, last to
first, and `total` is the length of the whole source, from which positions are counted. -/
def readClass (total : Nat) (unclosed : PatternFault) (members : List Step) (source : List Char) :
    Except PatternFault (List Step × Rest source) :=
  match source with
  | [] => .error unclosed
  | ']' :: rest => .ok (members.reverse, ⟨rest, by simp⟩)
  | '-' :: rest =>
      -- a range takes back the member before it, which is its lower end
      let fault := PatternFault.invalidRange (total - (rest.length + 1))
      match members with
      | .exactly low :: earlier =>
          match readMember unclosed rest with
          | .error failure => .error failure
          | .ok (high, ⟨after, _⟩) =>
              if high < low then .error fault
              else
                match readClass total unclosed (.between low high :: earlier) after with
                | .error failure => .error failure
                | .ok (found, ⟨final, _⟩) => .ok (found, ⟨final, by simp; omega⟩)
      | _ => .error fault
  | first :: rest =>
      match readMember unclosed (first :: rest) with
      | .error failure => .error failure
      | .ok (character, ⟨after, _⟩) =>
          match readClass total unclosed (.exactly character :: members) after with
          | .error failure => .error failure
          | .ok (found, ⟨final, _⟩) => .ok (found, ⟨final, by simp at *; omega⟩)
  termination_by source.length
  decreasing_by all_goals simp at *; omega

/-- The remaining source after a group whose inside starts at `source`. -/
abbrev GroupRest (source : List Char) :=
  { rest : List Char // rest.length ≤ source.length }

/-- Read a group to its end.  `opened` is the position of its opening parenthesis, or `none` for the
whole source, which ends where the text does. -/
def readGroup (total : Nat) (opened : Option Nat) (group : Partial) (source : List Char) :
    Except PatternFault (Option Regex × GroupRest source) :=
  match source with
  | [] =>
      match opened with
      | some position => .error (.unclosedGroup position)
      | none => do
          let found ← group.close (.emptyAlternative total)
          return (found, ⟨[], by simp⟩)
  | ')' :: rest =>
      match opened with
      | none => .error (.unmatchedClose (total - (rest.length + 1)))
      | some _ => do
          let found ← group.close (.emptyAlternative (total - rest.length))
          return (found, ⟨rest, by simp⟩)
  | '|' :: rest =>
      match group.branch? with
      | none => .error (.emptyAlternative (total - (rest.length + 1)))
      | some branch =>
          -- an empty alternative in front of a parenthesis shows when the group is closed
          if rest.isEmpty then .error (.emptyAlternative total)
          else
            match readGroup total opened ⟨branch :: group.alternatives, [], none⟩ rest with
            | .error failure => .error failure
            | .ok (found, ⟨final, _⟩) => .ok (found, ⟨final, by simp; omega⟩)
  | '(' :: rest =>
      let position := total - (rest.length + 1)
      match readGroup total (some position) .empty rest with
      | .error failure => .error failure
      | .ok (none, _) => .error (.emptyGroup position)
      | .ok (some inner, ⟨after, _⟩) =>
          match readGroup total opened (group.push inner) after with
          | .error failure => .error failure
          | .ok (found, ⟨final, _⟩) => .ok (found, ⟨final, by simp; omega⟩)
  | '[' :: rest =>
      let position := total - (rest.length + 1)
      match readClass total (.unclosedClass position) [] rest with
      | .error failure => .error failure
      | .ok ([], _) => .error (.emptyClass position)
      | .ok (member :: members, ⟨after, _⟩) =>
          match readGroup total opened (group.push (ofClass (member :: members))) after with
          | .error failure => .error failure
          | .ok (found, ⟨final, _⟩) => .ok (found, ⟨final, by simp; omega⟩)
  | '.' :: rest =>
      match readGroup total opened (group.push (.single .anything)) rest with
      | .error failure => .error failure
      | .ok (found, ⟨final, _⟩) => .ok (found, ⟨final, by simp; omega⟩)
  | '\\' :: [] => .error .trailingEscape
  | '\\' :: character :: rest =>
      match readGroup total opened (group.push (.single (.exactly character))) rest with
      | .error failure => .error failure
      | .ok (found, ⟨final, _⟩) => .ok (found, ⟨final, by simp; omega⟩)
  | character :: rest =>
      match quantifier? character with
      | some quantify =>
          match group.current with
          | none => .error (.danglingQuantifier (total - (rest.length + 1)))
          -- a quantified item is not current any more, so that no second quantifier follows it
          | some item =>
              match readGroup total opened
                  ⟨group.alternatives, quantify item :: group.items, none⟩ rest with
              | .error failure => .error failure
              | .ok (found, ⟨final, _⟩) => .ok (found, ⟨final, by simp; omega⟩)
      | none =>
          match readGroup total opened (group.push (.single (.exactly character))) rest with
          | .error failure => .error failure
          | .ok (found, ⟨final, _⟩) => .ok (found, ⟨final, by simp; omega⟩)
  termination_by source.length
  decreasing_by all_goals (simp at *; try omega)

/-- The regular expression that a source denotes; `none` is the empty text alone. -/
def read (source : String) : Except PatternFault (Option Regex) :=
  match readGroup source.toList.length none .empty source.toList with
  | .error fault => .error fault
  | .ok (found, _) => .ok found

end Regex
end Reckoner
