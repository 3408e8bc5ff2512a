import Reckoner.Expr.Postfix
import Reckoner.Expr.Tokenizer

/-!
# Reading expressions

A reader turns text into expressions.  It follows the grammar that was loaded last.
-/

namespace Reckoner

/-- A tokenizer and the precedences of the operators among its tokens. -/
structure Reader where
  tokenizer : Tokenizer
  precedences : Precedences
  deriving DecidableEq

namespace Reader

/-- A reader that knows no names. -/
def base : Reader :=
  ⟨.base, .empty⟩

/-- Learn the names of a grammar. -/
def load (reader : Reader) (grammar : Grammar) : Reader :=
  ⟨reader.tokenizer.load grammar, reader.precedences.load grammar⟩

/-- Forget the names of a grammar, and how any operator is read. -/
def unload (reader : Reader) (grammar : Grammar) : Reader :=
  ⟨reader.tokenizer.unload grammar, .empty⟩

/-- Cut a text into tokens. -/
def tokenize (reader : Reader) (text : String) : Except Failure (List Token) :=
  reader.tokenizer.tokenize text

/-- Read a text as an expression. -/
def parse (reader : Reader) (text : String) : Except Failure Expr :=
  match reader.tokenize text with
  | .error failure => .error failure
  | .ok tokens => reader.precedences.parse tokens

end Reader
end Reckoner
