import Reckoner.Data.Table
import Reckoner.Expr
import Reckoner.Number

/-!
# Contexts

The bindings that an evaluation sees.  A variable is bound to a number.  A definition is an
expression that is evaluated anew whenever its name is used, so that it follows later changes of
what it refers to.
-/

namespace Reckoner

/-- The number implementation in use, the variables and the definitions. -/
structure Context where
  implementation : Option String
  values : Table Number
  definitions : Table Expr
  deriving DecidableEq

namespace Context

/-- No implementation and no bindings. -/
def empty : Context :=
  ⟨none, .empty, .empty⟩

instance : Inhabited Context := ⟨empty⟩

/-- An implementation and no bindings. -/
def withImplementation (name : String) : Context :=
  ⟨some name, .empty, .empty⟩

/-- Choose the number implementation. -/
def setImplementation (context : Context) (name : String) : Context :=
  { context with implementation := some name }

/-- Bind a variable. -/
def setVariable (context : Context) (name : String) (value : Number) : Context :=
  { context with values := context.values.insert name value }

/-- Bind a definition. -/
def setDefinition (context : Context) (name : String) (tree : Expr) : Context :=
  { context with definitions := context.definitions.insert name tree }

/-- Drop all variables. -/
def clearVariables (context : Context) : Context :=
  { context with values := .empty }

/-- Drop all definitions. -/
def clearDefinitions (context : Context) : Context :=
  { context with definitions := .empty }

/-- Take over everything that another context binds. -/
def apply (context other : Context) : Context :=
  ⟨other.implementation <|> context.implementation,
    context.values.apply other.values,
    context.definitions.apply other.definitions⟩

end Context
end Reckoner
