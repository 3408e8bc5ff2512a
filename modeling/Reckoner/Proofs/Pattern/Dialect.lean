import Reckoner.Proofs.Pattern.Language

/-!
# The dialect of patterns

The grammar of pattern sources, each of its rules with the language of the source that it builds.
A source is a list of alternatives separated by bars, an alternative is a sequence of items, and an
item is an atom with at most one quantifier.  Nothing here depends on how sources are read.
-/

open scoped Computability

namespace Reckoner
namespace Dialect

/-- The characters that mean something when they are written outside a class without an escape. -/
def reserved : List Char :=
  ['+', '*', '?', '|', '(', ')', '[', '.', '\\']

/-- The source of one character inside a class. -/
inductive Literal : List Char → Char → Prop
  | escaped (character : Char) : Literal ['\\', character] character
  | plain {character : Char} (unescaped : character ≠ '\\') : Literal [character] character

/-- The source of a character with which a member of a class can start. -/
structure Leading (source : List Char) (character : Char) : Prop where
  literal : Literal source character
  not_close : source ≠ [']']
  not_dash : source ≠ ['-']

/-- The source of a member of a class, with the texts that it stands for. -/
inductive Member : List Char → Language Char → Prop
  | exactly {source : List Char} {character : Char}
      (leading : Leading source character) :
      Member source {[character]}
  | between {source last : List Char} {low high : Char}
      (leading : Leading source low)
      (literal : Literal last high)
      (ordered : low ≤ high) :
      Member (source ++ '-' :: last)
        { text | ∃ character, low ≤ character ∧ character ≤ high ∧ text = [character] }

/-- The source of one or more members of a class. -/
inductive Members : List Char → Language Char → Prop
  | last {source : List Char} {language : Language Char}
      (member : Member source language) :
      Members source language
  | more {source rest : List Char} {language other : Language Char}
      (member : Member source language)
      (members : Members rest other) :
      Members (source ++ rest) (language + other)

mutual

/-- The source of an atom: a group, a class or a character. -/
inductive Atom : List Char → Language Char → Prop
  | group {source : List Char} {language : Language Char}
      (alternatives : Alternatives source language) :
      Atom ('(' :: source ++ [')']) language
  | anything : Atom ['.'] { text | ∃ character, text = [character] }
  | escaped (character : Char) : Atom ['\\', character] {[character]}
  | members {source : List Char} {language : Language Char}
      (members : Members source language) :
      Atom ('[' :: source ++ [']']) language
  | plain {character : Char} (unreserved : character ∉ reserved) : Atom [character] {[character]}

/-- The source of an atom with at most one quantifier. -/
inductive Item : List Char → Language Char → Prop
  | once {source : List Char} {language : Language Char}
      (atom : Atom source language) :
      Item source language
  | oneOrMore {source : List Char} {language : Language Char}
      (atom : Atom source language) :
      Item (source ++ ['+']) (language * language∗)
  | zeroOrMore {source : List Char} {language : Language Char}
      (atom : Atom source language) :
      Item (source ++ ['*']) language∗
  | zeroOrOne {source : List Char} {language : Language Char}
      (atom : Atom source language) :
      Item (source ++ ['?']) (1 + language)

/-- The source of one or more items in a row. -/
inductive Sequence : List Char → Language Char → Prop
  | last {source : List Char} {language : Language Char}
      (item : Item source language) :
      Sequence source language
  | more {source rest : List Char} {language other : Language Char}
      (item : Item source language)
      (items : Sequence rest other) :
      Sequence (source ++ rest) (language * other)

/-- The source of one or more sequences with bars between them. -/
inductive Alternatives : List Char → Language Char → Prop
  | last {source : List Char} {language : Language Char}
      (sequence : Sequence source language) :
      Alternatives source language
  | more {source rest : List Char} {language other : Language Char}
      (sequence : Sequence source language)
      (alternatives : Alternatives rest other) :
      Alternatives (source ++ '|' :: rest) (language + other)

end

/-- A source of the dialect with the language that it denotes; the empty source denotes the empty
text alone. -/
inductive Denotes : List Char → Language Char → Prop
  | empty : Denotes [] 1
  | alternatives {source : List Char} {language : Language Char}
      (alternatives : Alternatives source language) :
      Denotes source language

theorem Atom.ne_nil
    {source : List Char}
    {language : Language Char}
    (atom : Atom source language) :
    source ≠ [] := by
  cases atom <;> simp

theorem Item.ne_nil
    {source : List Char}
    {language : Language Char}
    (item : Item source language) :
    source ≠ [] := by
  cases item with
  | once atom => exact atom.ne_nil
  | oneOrMore _ | zeroOrMore _ | zeroOrOne _ => simp

theorem Sequence.ne_nil
    {source : List Char}
    {language : Language Char}
    (sequence : Sequence source language) :
    source ≠ [] := by
  cases sequence with
  | last item => exact item.ne_nil
  | more item _ => simp [item.ne_nil]

theorem Alternatives.ne_nil
    {source : List Char}
    {language : Language Char}
    (alternatives : Alternatives source language) :
    source ≠ [] := by
  cases alternatives with
  | last sequence => exact sequence.ne_nil
  | more _ _ => simp

/-! ## Sources are read from left to right -/

/-- Another member at the end of a class. -/
theorem Members.snoc
    {source last : List Char}
    {language other : Language Char}
    (members : Members source language)
    (member : Member last other) :
    Members (source ++ last) (language + other) := by
  induction members with
  | last first => exact .more first (.last member)
  | more first _ hypothesis =>
      rw [List.append_assoc, add_assoc]
      exact .more first hypothesis

/-- Another item at the end of a sequence. -/
theorem Sequence.snoc
    {source last : List Char}
    {language other : Language Char}
    (sequence : Sequence source language)
    (item : Item last other) :
    Sequence (source ++ last) (language * other) := by
  match sequence with
  | .last first => exact .more first (.last item)
  | .more first rest =>
      rw [List.append_assoc, mul_assoc]
      exact .more first (rest.snoc item)

end Dialect
end Reckoner
