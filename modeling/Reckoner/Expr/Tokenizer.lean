import Reckoner.Expr.Operator
import Reckoner.Failure
import Reckoner.Lexer

/-!
# Tokenizer

A tokenizer is a lexer that knows numbers, variables, parentheses, commas and spaces from the start
and learns the names of a grammar when one is loaded.  Spaces separate tokens and are dropped.
-/

namespace Reckoner

/-- A lexer whose identifiers are kinds of tokens. -/
structure Tokenizer where
  lexer : Lexer TokenKind
  deriving DecidableEq

namespace Tokenizer

/-- The shapes that every tokenizer knows. -/
def basePatterns : List (String × TokenKind) :=
  [(" ", .whitespace), (",", .comma), ("[0-9]*(\\.[0-9]+)?", .number), ("[a-zA-Z]+", .variable),
    ("\\(", .openParen), ("\\)", .closeParen)]

/-- Learn a pattern; a malformed one is ignored. -/
def learn (tokenizer : Tokenizer) (source : String) (kind : TokenKind) : Tokenizer :=
  match tokenizer.lexer.register source kind with
  | .ok lexer => ⟨lexer⟩
  | .error _ => tokenizer

/-- Forget a pattern. -/
def forget (tokenizer : Tokenizer) (source : String) (kind : TokenKind) : Tokenizer :=
  ⟨tokenizer.lexer.unregister source kind⟩

/-- The tokenizer that knows the base patterns alone. -/
def base : Tokenizer :=
  basePatterns.foldl (fun tokenizer entry => tokenizer.learn entry.1 entry.2) ⟨.empty⟩

/-- The names of a grammar with the kinds of tokens that they become, in reading order. -/
def entriesOf (grammar : Grammar) : List (String × TokenKind) :=
  Symbol.all.flatMap (fun symbol =>
    (grammar.names symbol).map (fun name => (name, TokenKind.ofSymbol symbol)))

/-- Learn the non-empty names of a grammar. -/
def load (tokenizer : Tokenizer) (grammar : Grammar) : Tokenizer :=
  ((entriesOf grammar).filter (fun entry => !entry.1.isEmpty)).foldl
    (fun result entry => result.learn (Pattern.literal entry.1) entry.2) tokenizer

/-- Forget the names of a grammar. -/
def unload (tokenizer : Tokenizer) (grammar : Grammar) : Tokenizer :=
  (entriesOf grammar).foldl
    (fun result entry => result.forget (Pattern.literal entry.1) entry.2) tokenizer

/-- Whether a name is known as a symbol. -/
def recognizes (tokenizer : Tokenizer) (name : String) (symbol : Symbol) : Bool :=
  tokenizer.lexer.contains (Pattern.literal name) (.ofSymbol symbol)

/-- The token of a match. -/
def tokenOf (found : Match TokenKind) : Token :=
  ⟨found.id, found.text⟩

/-- Cut a text into tokens; the empty text has none.  A text that cannot be cut is walked over once
more to find the offset that stands in the way. -/
def tokenize (tokenizer : Tokenizer) (text : String) : Except Failure (List Token) :=
  if text.isEmpty then .ok []
  else
    match tokenizer.lexer.lexAll? TokenKind.byPriority text 0 with
    | none => .error (.noTokenAt (tokenizer.lexer.reach TokenKind.byPriority 0 text.toList))
    | some pieces => .ok ((pieces.filter (fun found => found.id != .whitespace)).map tokenOf)

end Tokenizer
end Reckoner
