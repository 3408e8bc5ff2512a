import Reckoner.Pattern

/-!
# Lexer

A lexer holds patterns under identifiers and runs all their automata side by side.  At a position it
takes the longest match; among equally long ones the identifier that the caller ranks highest, and
then the pattern that was registered last.  Offsets count bytes of UTF-8.
-/

namespace Reckoner

/-- The number of bytes that characters take in UTF-8. -/
def byteLength (characters : List Char) : Nat :=
  characters.foldr (fun character bytes => character.utf8Size + bytes) 0

/-- A piece of a text, from its first byte on, and the identifier that it matched. -/
structure Match (α : Type) where
  start : Nat
  lexeme : List Char
  id : α
  deriving DecidableEq, Repr

namespace Match

/-- The offset just behind a match. -/
def stop (found : Match α) : Nat :=
  found.start + byteLength found.lexeme

/-- The number of bytes of a match. -/
def length (found : Match α) : Nat :=
  byteLength found.lexeme

/-- The matched text. -/
def text (found : Match α) : String :=
  String.ofList found.lexeme

end Match

/-- A pattern and the identifier under which it is registered. -/
structure Registration (α : Type) where
  id : α
  pattern : Pattern
  deriving DecidableEq, Repr

/-- Patterns under identifiers, in the order of their registration. -/
structure Lexer (α : Type) where
  registrations : List (Registration α)
  deriving DecidableEq, Repr

namespace Lexer

variable {α : Type}

/-- A lexer without patterns. -/
def empty : Lexer α :=
  ⟨[]⟩

section Registering

variable [DecidableEq α]

/-- Whether a registration has this source and this identifier. -/
def isEntry (source : String) (id : α) (registration : Registration α) : Bool :=
  registration.pattern.source == source && registration.id == id

/-- Whether a source is registered under an identifier. -/
def contains (lexer : Lexer α) (source : String) (id : α) : Bool :=
  lexer.registrations.any (isEntry source id)

/-- Drop a source under an identifier. -/
def unregister (lexer : Lexer α) (source : String) (id : α) : Lexer α :=
  ⟨lexer.registrations.filter (fun registration => !isEntry source id registration)⟩

/-- Register a source under an identifier as the latest entry; an entry of the same source and
identifier is replaced, and a malformed source changes nothing. -/
def register (lexer : Lexer α) (source : String) (id : α) : Except PatternFault (Lexer α) :=
  match Pattern.compile source with
  | .error fault => .error fault
  | .ok pattern =>
      .ok ⟨(lexer.unregister source id).registrations ++ [⟨id, pattern⟩]⟩

end Registering

/-- The number of registered patterns. -/
def size (lexer : Lexer α) : Nat :=
  lexer.registrations.length

/-- Whether no pattern is registered. -/
def isEmpty (lexer : Lexer α) : Bool :=
  lexer.registrations.isEmpty

/-- A registered pattern in the middle of a run: the slot of its registration and its live nodes. -/
structure Runner (α : Type) where
  slot : Nat
  id : α
  automaton : Automaton
  live : List Nat

namespace Runner

/-- Consume a character. -/
def advance (runner : Runner α) (character : Char) : Runner α :=
  { runner with live := runner.automaton.advance runner.live character }

/-- Whether the characters consumed so far match. -/
def accepting (runner : Runner α) : Bool :=
  runner.automaton.acceptsAt runner.live

/-- Whether some continuation of the characters consumed so far could match. -/
def alive (runner : Runner α) : Bool :=
  !runner.live.isEmpty

end Runner

/-- A match that a run has passed: how many characters it has, and which registration it is of. -/
structure Candidate (α : Type) where
  length : Nat
  id : α
  slot : Nat
  deriving DecidableEq, Repr

/-- Candidates are ranked by length, then by identifier, then by the slot of the registration. -/
def Candidate.rank (tieBreak : α → α → Ordering) (first second : Candidate α) : Ordering :=
  ((compare first.length second.length).then (tieBreak first.id second.id)).then
    (compare first.slot second.slot)

/-- The better of the best candidate so far and the one that a runner offers. -/
def consider
    (tieBreak : α → α → Ordering)
    (length : Nat)
    (best : Option (Candidate α))
    (runner : Runner α) :
    Option (Candidate α) :=
  if runner.accepting then
    let offered : Candidate α := ⟨length, runner.id, runner.slot⟩
    match best with
    | none => some offered
    | some current => if offered.rank tieBreak current == .gt then some offered else best
  else best

/-- Run all patterns side by side over the remaining characters, `length` of them being consumed. -/
def run
    (tieBreak : α → α → Ordering)
    (runners : List (Runner α))
    (length : Nat)
    (best : Option (Candidate α)) :
    List Char → Option (Candidate α)
  | [] => runners.foldl (consider tieBreak length) best
  | character :: rest =>
      let found := runners.foldl (consider tieBreak length) best
      match (runners.map (·.advance character)).filter Runner.alive with
      | [] => found
      | next => run tieBreak next (length + 1) found rest

/-- The runners of a lexer before the first character. -/
def runners (lexer : Lexer α) : List (Runner α) :=
  lexer.registrations.mapIdx (fun slot registration =>
    ⟨slot, registration.id, registration.pattern.automaton,
      registration.pattern.automaton.initial⟩)

/-- The best match at the beginning of the characters, which stand at byte offset `start`. -/
def lexAt?
    (lexer : Lexer α)
    (tieBreak : α → α → Ordering)
    (start : Nat)
    (characters : List Char) :
    Option (Match α) :=
  (run tieBreak lexer.runners 0 none characters).map (fun best =>
    ⟨start, characters.take best.length, best.id⟩)

/-- The characters of a text from a byte offset on. -/
def fromOffset : Nat → List Char → List Char
  | _, [] => []
  | 0, characters => characters
  | offset + 1, character :: rest => fromOffset (offset + 1 - character.utf8Size) rest

/-- The best match of a text at a byte offset. -/
def lexOne?
    (lexer : Lexer α)
    (tieBreak : α → α → Ordering)
    (text : String)
    (start : Nat) :
    Option (Match α) :=
  lexer.lexAt? tieBreak start (fromOffset start text.toList)

/-- The matches from an offset to the end of the characters: `none` when nothing but an empty
match is found on the way. -/
def lexFrom
    (lexer : Lexer α)
    (tieBreak : α → α → Ordering)
    (start : Nat)
    (characters : List Char) :
    Option (List (Match α)) :=
  match characters with
  | [] => some []
  | first :: rest =>
      match lexer.lexAt? tieBreak start (first :: rest) with
      | none => none
      | some found =>
          -- an empty match would be found at the same place for ever
          if found.lexeme.isEmpty then none
          else
            (lexer.lexFrom tieBreak found.stop (rest.drop (found.lexeme.length - 1))).map
              (found :: ·)
  termination_by characters.length
  decreasing_by simp only [List.length_drop, List.length_cons]; omega

/-- Cut a text into matches from an offset on: `none` when a piece has no match, when a match is
empty, or when there is nothing to cut. -/
def lexAll?
    (lexer : Lexer α)
    (tieBreak : α → α → Ordering)
    (text : String)
    (start : Nat) :
    Option (List (Match α)) :=
  match fromOffset start text.toList with
  | [] => none
  | characters => lexer.lexFrom tieBreak start characters

/-- The offset that is reached by going from match to match: that of the end of the characters, or
the first one at which nothing but an empty match is found. -/
def reach
    (lexer : Lexer α)
    (tieBreak : α → α → Ordering)
    (start : Nat)
    (characters : List Char) :
    Nat :=
  match characters with
  | [] => start
  | first :: rest =>
      match lexer.lexAt? tieBreak start (first :: rest) with
      | none => start
      | some found =>
          if found.lexeme.isEmpty then start
          else lexer.reach tieBreak found.stop (rest.drop (found.lexeme.length - 1))
  termination_by characters.length
  decreasing_by simp only [List.length_drop, List.length_cons]; omega

end Lexer
end Reckoner
