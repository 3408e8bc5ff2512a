import Reckoner.Text.Printable

/-!
# Quoted text

The quoted rendering of a text: a double quote on either side, the usual short escapes, and every
other character that is not printable as a hexadecimal code point in braces.
-/

namespace Reckoner
namespace Text

/-- The lower-case hexadecimal digits of a number. -/
def hexDigits (number : Nat) : List Char :=
  Nat.toDigits 16 number

/-- What stands for one character inside quotes. -/
def escapeChar (character : Char) : List Char :=
  if character = '"' then ['\\', '"']
  else if character = '\\' then ['\\', '\\']
  else if character = '\n' then ['\\', 'n']
  else if character = '\t' then ['\\', 't']
  else if character = '\r' then ['\\', 'r']
  else if character.toNat = 0 then ['\\', '0']
  else if isPrintable character then [character]
  else "\\u\x7b".toList ++ hexDigits character.toNat ++ "\x7d".toList

/-- A text between double quotes, with its special characters escaped. -/
def quoted (text : String) : String :=
  String.ofList ('"' :: text.toList.flatMap escapeChar ++ ['"'])

end Text
end Reckoner
