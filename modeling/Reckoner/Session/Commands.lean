import Reckoner.Session

/-!
# Commands

What can be asked of a session, answered with text.
-/

namespace Reckoner
namespace Session

/-- Why a request has no answer; a computation that does not end gives none. -/
def stopMessage : Stop → String
  | .failed failure => failure.message
  | .unfinished => "unfinished"

/-- The value of a text. -/
def evalText (limit : Nat) (session : Session) (text : String) (timeout : Option Nat) :
    Except Stop String × Session :=
  match session.calculate limit text timeout with
  | (.ok value, after) => (.ok value.display, after)
  | (.error stop, after) => (.error stop, after)

/-- The fully parenthesized form of a text. -/
def parseText (session : Session) (text : String) : Except Failure String :=
  (session.parse text).map Expr.render

/-- The tokens of a text, one to a line. -/
def lexText (session : Session) (text : String) : Except Failure String :=
  (session.tokenize text).map (fun tokens =>
    String.join (tokens.map (fun token => token.render ++ "\n")))

/-- A text filled up with blanks to a number of characters. -/
def padded (width : Nat) (text : String) : String :=
  text ++ String.ofList (List.replicate (width - text.length) ' ')

/-- The help text of a name, or else the summaries of what mentions it. -/
def describe? (session : Session) (name : String) : Option String :=
  match session.documentation? name with
  | some entry =>
      some (entry.name ++ " (" ++ entry.codeName ++ ")\n  " ++ entry.description ++ "\n\n" ++
        entry.longDescription ++ "\n")
  | none =>
      match session.search name with
      | [] => none
      | related =>
          some (String.join (related.map (fun entry =>
            padded 8 entry.codeName ++ " " ++ entry.description ++ "\n")))

/-- The variables and definitions, one to a line. -/
def bindings (session : Session) : String :=
  let values := session.context.values.entries.map (fun (name, value) =>
    name ++ " = " ++ value.display ++ "\n")
  let definitions := session.context.definitions.entries.map (fun (name, tree) =>
    name ++ " := " ++ tree.render ++ "\n")
  String.join (values ++ definitions)

end Session
end Reckoner
