import Reckoner.Data.Table
import Reckoner.Text.Blank

/-!
# Configuration

Which implementation of numbers a session uses, and which plugins it leaves out.
-/

namespace Reckoner

/-- The implementation of numbers in use and the names of the plugins that are left out. -/
structure Configuration where
  number : String
  disabled : Table Unit
  deriving DecidableEq

namespace Configuration

/-- The environment variable that names the implementation of numbers. -/
def numberVariable : String := "ABACUS_NUMBER"

/-- The implementation that is used when nothing else is asked for. -/
def defaultNumber : String := "naive"

/-- The default implementation and all plugins. -/
def default : Configuration :=
  ⟨defaultNumber, .empty⟩

/-- Use an implementation of numbers. -/
def withNumber (configuration : Configuration) (name : String) : Configuration :=
  { configuration with number := name }

/-- Leave a plugin out. -/
def withDisabled (configuration : Configuration) (id : String) : Configuration :=
  { configuration with disabled := configuration.disabled.insert id () }

/-- Whether a plugin is left out. -/
def isDisabled (configuration : Configuration) (id : String) : Bool :=
  configuration.disabled.contains id

/-- The default configuration with the implementation that the environment names, unless the name is
blank. -/
def ofEnvironment (lookup : String → Option String) : Configuration :=
  match lookup numberVariable with
  | none => default
  | some value =>
      let name := Text.trim value
      if name.isEmpty then default else default.withNumber name

/-- The names in a list that is separated by commas. -/
def idsOf (list : List Char) : List String :=
  ((Text.splitAt ',' list).map (fun id => String.ofList (Text.trimChars id))).filter
    (fun id => !id.isEmpty)

/-- The configuration that a flag leads to; `none` when the argument is no flag of a
configuration. -/
def applyFlag? (configuration : Configuration) (argument : String) : Option Configuration :=
  match Text.after? "--number=".toList argument.toList with
  | some name => some (configuration.withNumber (String.ofList name))
  | none =>
      (Text.after? "--disable=".toList argument.toList).map (fun ids =>
        (idsOf ids).foldl withDisabled configuration)

end Configuration
end Reckoner
