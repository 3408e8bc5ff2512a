import Reckoner.Session.Commands

/-!
# Dialogues

A session that is led line by line.  Every line is calculated against the same bindings; lines that
start with a colon are about the session itself.
-/

namespace Reckoner
namespace Session

/-- The lines of bytes: each ends with a line feed, in front of which one carriage return is
dropped; a last line without one counts if it is not empty. -/
def linesOf : (line : List UInt8) → List UInt8 → List (List UInt8)
  | [], [] => []
  | line, [] => [line.reverse]
  | line, 10 :: rest =>
      (match line with
        | 13 :: text => text.reverse
        | text => text.reverse) :: linesOf [] rest
  | line, byte :: rest => linesOf (byte :: line) rest

/-- The text that bytes encode. -/
def decode? (bytes : List UInt8) : Option String :=
  String.fromUTF8? ⟨bytes.toArray⟩

/-- What the session says about itself when asked for help. -/
def helpText : String :=
  ":vars          list variables and definitions\n" ++
  ":doc <name>    show documentation\n" ++
  ":reload        reload plugins and clear bindings\n" ++
  ":quit          leave the session\n"

/-- Whether a line ends the dialogue. -/
def isFarewell (line : String) : Bool :=
  line == ":quit" || line == ":q" || line == "exit"

/-- The answer to a line that does not end the dialogue. -/
def respond (limit : Nat) (session : Session) (timeout : Option Nat) (line : String) :
    String × Session :=
  if line == ":help" then (helpText, session)
  else if line == ":reload" then ("reloaded\n", session.reload)
  else if line == ":vars" then (session.bindings, session)
  else
    match Text.after? ":doc".toList line.toList with
    | some rest =>
        let name := String.ofList (Text.trimChars rest)
        match session.describe? name with
        | some text => (text, session)
        | none => ("no documentation for '" ++ name ++ "'\n", session)
    | none =>
        match session.evalText limit line timeout with
        | (.ok value, after) => (value ++ "\n", after)
        | (.error stop, after) => ("error: " ++ stopMessage stop ++ "\n", after)

/-- What a dialogue leaves behind: what was said, whether it broke off at a line that is not text,
and the session. -/
structure Transcript where
  output : String
  broken : Bool
  session : Session

/-- Answer lines one after the other, up to a farewell or a line that is not text. -/
def converse (limit : Nat) (timeout : Option Nat) :
    (said : String) → Session → List (List UInt8) → Transcript
  | said, session, [] => ⟨said, false, session⟩
  | said, session, bytes :: rest =>
      match decode? bytes with
      | none => ⟨said, true, session⟩
      | some text =>
          let line := Text.trim text
          if line.isEmpty then converse limit timeout said session rest
          else if isFarewell line then ⟨said, false, session⟩
          else
            let (answer, after) := session.respond limit timeout line
            converse limit timeout (said ++ answer) after rest

/-- Lead a dialogue over a whole input. -/
def dialogue (limit : Nat) (session : Session) (timeout : Option Nat) (input : List UInt8) :
    Transcript :=
  converse limit timeout "" session (linesOf [] input)

end Session
end Reckoner
