import Reckoner.Pattern.Automaton
import Reckoner.Pattern.Reading

/-!
# Compiled patterns

A pattern is its source together with the automaton that recognizes the language of the source.
-/

namespace Reckoner

/-- A source text and its automaton. -/
structure Pattern where
  source : String
  automaton : Automaton
  deriving DecidableEq, Repr

namespace Pattern

/-- Compile a source, or say what is wrong with it. -/
def compile (source : String) : Except PatternFault Pattern :=
  match Regex.read source with
  | .error fault => .error fault
  | .ok regex => .ok ⟨source, .ofRegex regex⟩

/-- Whether a pattern matches a text as a whole. -/
def isMatch (pattern : Pattern) (text : String) : Bool :=
  pattern.automaton.accepts text.toList

/-- Whether a character is escaped when a text is to be matched literally. -/
def isSpecial (character : Char) : Bool :=
  "\\.[]()|*+?-".toList.contains character

/-- The characters of a source that matches exactly the given characters. -/
def literalChars (text : List Char) : List Char :=
  text.flatMap (fun character => if isSpecial character then ['\\', character] else [character])

/-- A source that matches exactly the given text. -/
def literal (text : String) : String :=
  String.ofList (literalChars text.toList)

end Pattern
end Reckoner
