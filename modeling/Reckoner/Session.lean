import Reckoner.Evaluation.Plugin
import Reckoner.Evaluation.Reduction
import Reckoner.Expr.Reader
import Reckoner.Session.Configuration
import Reckoner.Standard.Plugin

/-!
# Sessions

A session owns plugins, a reader that follows their grammar, and bindings that outlast a
calculation.  Evaluating an expression never changes the bindings; its result carries bindings of
its own, which can be taken over afterwards.  The caches of the registry do keep what an evaluation
has put into them.

An evaluation is bounded by a limit, see `Run`; one that goes on beyond every limit does not end.
A deadline may cancel an evaluation at any of its checks.
-/

namespace Reckoner

namespace Reader

/-- Follow an announcement of the grammar. -/
def hear (reader : Reader) : Announcement → Reader
  | .load grammar => reader.load grammar
  | .unload grammar => reader.unload grammar

/-- Follow the announcements among notices. -/
def follow (reader : Reader) (notices : List Notice) : Reader :=
  notices.foldl
    (fun current notice =>
      match notice with
      | .announced announcement => current.hear announcement
      | _ => current)
    reader

end Reader

/-- A deadline for an evaluation.  It passes between two checks or after the last one, and the
evaluation is cancelled then; or it never passes, if the evaluation is done in time. -/
structure Deadline where
  milliseconds : Nat
  cancellation : Cancellation
  deriving DecidableEq, Repr

namespace Deadline

/-- What is heard of an evaluation under a deadline.  One that has been cancelled is waited for, and
whatever it has come to is dropped. -/
def answer (deadline : Deadline) : Except Stop Evaluated → Except Stop Evaluated
  | .error .unfinished => .error .unfinished
  | outcome =>
      if deadline.cancellation = .never then outcome
      else .error (.failed (.timedOut deadline.milliseconds))

end Deadline

/-- Plugins under a configuration, a reader of their grammar, and bindings. -/
structure Session where
  configuration : Configuration
  plugins : PluginManager
  reader : Reader
  context : Context

namespace Session

/-- What has been registered. -/
def registry (session : Session) : Registry :=
  session.plugins.registry

/-- The implementation of numbers that is used among registered ones: the one that is asked for, or
else the default one, or else the first. -/
def resolve (wanted : String) (registered : List String) : Option String :=
  if registered.contains wanted then some wanted
  else if registered.contains Configuration.defaultNumber then some Configuration.defaultNumber
  else registered.head?

/-- No bindings, and the implementation that a configuration leads to. -/
def freshContext (configuration : Configuration) (registry : Registry) : Context :=
  match resolve configuration.number registry.implementations.names with
  | some name => .withImplementation name
  | none => .empty

/-- Unload and load all plugins under the configuration, and drop the bindings, which may refer to
names that are gone. -/
def reload (session : Session) : Session :=
  let (plugins, notices) := session.plugins.reload session.configuration.disabled.names
  { session with
    plugins
    reader := session.reader.follow notices
    context := freshContext session.configuration plugins.registry }

/-- A session with plugins. -/
def withPlugins (configuration : Configuration) (plugins : List Plugin) : Session :=
  reload ⟨configuration, plugins.foldl PluginManager.add .empty, .base, .empty⟩

/-- A session with the standard plugin. -/
def new (configuration : Configuration) : Session :=
  withPlugins configuration [Standard.plugin]

/-- Change the configuration and reload. -/
def configure (session : Session) (configuration : Configuration) : Session :=
  reload { session with configuration }

/-- Add a plugin, which takes effect with the next reload. -/
def addPlugin (session : Session) (plugin : Plugin) : Session :=
  { session with plugins := session.plugins.add plugin }

/-- Remove a plugin, which takes effect with the next reload. -/
def removePlugin (session : Session) (id : String) : Session :=
  { session with plugins := session.plugins.remove id }

/-- Cut a text into tokens. -/
def tokenize (session : Session) (text : String) : Except Failure (List Token) :=
  session.reader.tokenize text

/-- Read a text as an expression. -/
def parse (session : Session) (text : String) : Except Failure Expr :=
  session.reader.parse text

/-- Keep what evaluations have put into the caches. -/
def keepCaches (session : Session) (caches : Caches) : Session :=
  { session with
    plugins := { session.plugins with registry := { session.registry with caches } } }

/-- Evaluate an expression against the bindings, without changing them. -/
def evaluate
    (limit : Nat)
    (session : Session)
    (tree : Expr)
    (cancellation : Cancellation) :
    Except Stop Evaluated × Session :=
  let ending := Reckoner.evaluate limit session.registry session.context tree cancellation
  (ending.result, session.keepCaches ending.machine.caches)

/-- Evaluate an expression until it is done or a deadline passes, which cancels the evaluation. -/
def evaluateUntil
    (limit : Nat)
    (session : Session)
    (tree : Expr)
    (deadline : Deadline) :
    Except Stop Evaluated × Session :=
  let (outcome, after) := session.evaluate limit tree deadline.cancellation
  (deadline.answer outcome, after)

/-- Evaluate an expression, under a deadline if there is one. -/
def evaluateBy
    (limit : Nat)
    (session : Session)
    (tree : Expr) :
    (deadline : Option Deadline) → Except Stop Evaluated × Session
  | none => session.evaluate limit tree .never
  | some deadline => session.evaluateUntil limit tree deadline

/-- Evaluate an expression under a deadline that passes if the evaluation does not end before.  No
clock is read: when it is that the deadline passes shows in the caches alone. -/
def evaluateWithTimeout
    (limit : Nat)
    (session : Session)
    (tree : Expr)
    (milliseconds : Nat) :
    Except Stop Evaluated × Session :=
  match session.evaluateUntil limit tree ⟨milliseconds, .never⟩ with
  | (.error .unfinished, _) => session.evaluateUntil limit tree ⟨milliseconds, .now⟩
  | ended => ended

/-- Evaluate an expression, and pass a deadline if there is one and the evaluation does not end. -/
def evaluateWithin
    (limit : Nat)
    (session : Session)
    (tree : Expr) :
    (timeout : Option Nat) → Except Stop Evaluated × Session
  | none => session.evaluate limit tree .never
  | some milliseconds => session.evaluateWithTimeout limit tree milliseconds

/-- Take over the bindings of a result. -/
def commit (session : Session) (result : Evaluated) : Session :=
  { session with context := session.context.apply result.context }

/-- Take over the bindings of an evaluation that has succeeded, and give its value. -/
def conclude : Except Stop Evaluated × Session → Except Stop Number × Session
  | (.ok result, after) => (.ok result.value, after.commit result)
  | (.error stop, after) => (.error stop, after)

/-- Read a text, evaluate what is read and take over the bindings; when anything fails the bindings
stay. -/
def calculateWith
    (evaluate : Expr → Except Stop Evaluated × Session)
    (session : Session)
    (text : String) :
    Except Stop Number × Session :=
  match session.parse text with
  | .error failure => (.error (.failed failure), session)
  | .ok tree => conclude (evaluate tree)

/-- Calculate a text, under a deadline if there is one. -/
def calculateBy
    (limit : Nat)
    (session : Session)
    (text : String)
    (deadline : Option Deadline) :
    Except Stop Number × Session :=
  session.calculateWith (session.evaluateBy limit · deadline) text

/-- Calculate a text, and pass a deadline if there is one and the evaluation does not end. -/
def calculate
    (limit : Nat)
    (session : Session)
    (text : String)
    (timeout : Option Nat) :
    Except Stop Number × Session :=
  session.calculateWith (session.evaluateWithin limit · timeout) text

/-- The documentation of a name, that of a function of values first. -/
def documentation? (session : Session) (name : String) : Option Documentation :=
  session.registry.documentation? name .value <|> session.registry.documentation? name .tree

/-- The documentation that mentions a query. -/
def search (session : Session) (query : String) : List Documentation :=
  session.registry.search query

end Session
end Reckoner
