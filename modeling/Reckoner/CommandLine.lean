import Reckoner.Session.Dialogue
import Reckoner.Session.Options

/-!
# The command line

What the program writes and how it ends, as a function of its arguments, its environment and its
input.
-/

namespace Reckoner
namespace CommandLine

/-- What a program leaves behind: its exit code, its output and its error output. -/
structure Outcome where
  code : Nat
  output : String
  errors : String
  deriving DecidableEq, Repr

/-- Success with an output. -/
def succeed (output : String) : Outcome := ⟨0, output, ""⟩

/-- Failure with an error output. -/
def failWith (errors : String) : Outcome := ⟨1, "", errors⟩

/-- The version of the program. -/
def version : String := "0.1.0-alpha.1"

/-- How the program is used. -/
def usage : String :=
  "Abacus, an extensible expression calculator\n" ++
  "\n" ++
  "Usage: abacus <command> [options]\n" ++
  "\n" ++
  "Commands:\n" ++
  "  eval <expr>        Evaluate an expression and print the value\n" ++
  "  parse <expr>       Print the fully parenthesized tree\n" ++
  "  lex <expr>         Print the token stream\n" ++
  "  doc <name>         Show documentation for a function\n" ++
  "  repl               Start an interactive session\n" ++
  "  help               Show this help message\n" ++
  "  version            Show version information\n" ++
  "\n" ++
  "Options:\n" ++
  "  --number=<name>    Number implementation: naive, precise (env: ABACUS_NUMBER)\n" ++
  "  --disable=<ids>    Comma-separated plugin ids to leave unloaded\n" ++
  "  --timeout=<ms>     Cancel evaluation after this many milliseconds\n" ++
  "\n" ++
  "Set RUST_LOG (e.g. RUST_LOG=abacus_eval=debug) for tracing output.\n"

/-- The outcome of a failure. -/
def refuse (reason : String) : Outcome := failWith ("error: " ++ reason ++ "\n")

/-- The outcome of a command that lacks its argument. -/
def lacking (form : String) : Outcome := failWith ("Usage: abacus " ++ form ++ "\n")

/-- Run a command in a session. -/
def runCommand
    (limit : Nat)
    (session : Session)
    (timeout : Option Nat)
    (command : String)
    (rest : List String)
    (input : List UInt8) :
    Outcome :=
  let expression := " ".intercalate rest
  if command == "eval" then
    if rest.isEmpty then lacking "eval <expression> [options]"
    else
      match (session.evalText limit expression timeout).1 with
      | .ok value => succeed (value ++ "\n")
      | .error stop => refuse (Session.stopMessage stop)
  else if command == "parse" then
    if rest.isEmpty then lacking "parse <expression>"
    else
      match session.parseText expression with
      | .ok tree => succeed (tree ++ "\n")
      | .error failure => refuse failure.message
  else if command == "lex" then
    if rest.isEmpty then lacking "lex <expression>"
    else
      match session.lexText expression with
      | .ok tokens => succeed tokens
      | .error failure => refuse failure.message
  else if command == "doc" then
    if rest.isEmpty then lacking "doc <name>"
    else
      match session.describe? expression with
      | some text => succeed text
      | none => failWith ("no documentation for '" ++ expression ++ "'\n")
  else if command == "repl" then
    let transcript := session.dialogue limit timeout input
    -- what was answered before the broken line has been printed
    if transcript.broken then
      ⟨1, transcript.output, "error: stream did not contain valid UTF-8\n"⟩
    else succeed transcript.output
  else ⟨1, usage, "Unknown command: " ++ command ++ "\n\n"⟩

/-- Run the program. -/
def run
    (limit : Nat)
    (arguments : List String)
    (lookup : String → Option String)
    (input : List UInt8) :
    Outcome :=
  match arguments with
  | [] => succeed usage
  | command :: others =>
      if ["help", "--help", "-h"].contains command then succeed usage
      else if ["version", "--version", "-V"].contains command then
        succeed ("Abacus " ++ version ++ "\n")
      else
        match Options.read others (.ofEnvironment lookup) with
        | .error refusal => refuse refusal.message
        | .ok (options, rest) =>
            runCommand limit (.new options.configuration) options.timeout command rest input

end CommandLine
end Reckoner
