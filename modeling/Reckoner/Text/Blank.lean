/-!
# Blank characters

Classes of characters are given by the ranges of their code points.  The first of them are the
characters that Unicode counts as white space; texts are freed of them at either end.
-/

namespace Reckoner
namespace Text

/-- Whether a character lies in one of some ranges of code points, both ends included. -/
def inRanges (ranges : List (Nat × Nat)) (character : Char) : Bool :=
  ranges.any (fun range => range.1 ≤ character.toNat && character.toNat ≤ range.2)

/-- The code points of white space, as ranges with both ends included. -/
def blankRanges : List (Nat × Nat) :=
  [(0x09, 0x0d), (0x20, 0x20), (0x85, 0x85), (0xa0, 0xa0), (0x1680, 0x1680), (0x2000, 0x200a),
    (0x2028, 0x2029), (0x202f, 0x202f), (0x205f, 0x205f), (0x3000, 0x3000)]

/-- Whether a character is white space. -/
def isBlank (character : Char) : Bool :=
  inRanges blankRanges character

/-- A text without the white space at its ends. -/
def trimChars (text : List Char) : List Char :=
  ((text.dropWhile isBlank).reverse.dropWhile isBlank).reverse

/-- A text without the white space at its ends. -/
def trim (text : String) : String :=
  String.ofList (trimChars text.toList)

/-- What follows a beginning, if a text has that beginning. -/
def after? (beginning text : List Char) : Option (List Char) :=
  match beginning, text with
  | [], rest => some rest
  | _ :: _, [] => none
  | expected :: more, first :: rest => if expected = first then after? more rest else none

/-- The pieces of a text between the occurrences of a character. -/
def splitAt (separator : Char) : List Char → List (List Char)
  | [] => [[]]
  | first :: rest =>
      if first = separator then [] :: splitAt separator rest
      else
        match splitAt separator rest with
        | [] => [[first]]
        | piece :: pieces => (first :: piece) :: pieces

end Text
end Reckoner
