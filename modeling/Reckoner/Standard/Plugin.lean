import Reckoner.Evaluation.Plugin
import Reckoner.Standard.Documents
import Reckoner.Standard.Functions
import Reckoner.Standard.Implementations
import Reckoner.Standard.Operators

/-!
# The standard plugin
-/

namespace Reckoner
namespace Standard

/-- The name of the standard plugin. -/
def pluginId : String := "standard"

/-- Register the standard implementations, operators, functions and documentation. -/
def enable (registry : Registry) : Registry :=
  let implementations :=
    (registry.registerImplementation naiveName naive).registerImplementation preciseName precise
  let withOperators := operators.foldl
    (fun result (name, spec, function) => result.registerOperator name spec function)
    implementations
  let withTreeOperators := treeOperators.foldl
    (fun result (name, spec, function) => result.registerTreeOperator name spec function)
    withOperators
  let withFunctions := functions.foldl
    (fun result (name, admits, apply) => result.registerFunction name (.unary name admits apply))
    withTreeOperators
  documentation.foldl Registry.registerDocumentation withFunctions

/-- The standard plugin. -/
def plugin : Plugin :=
  ⟨pluginId, enable⟩

end Standard
end Reckoner
