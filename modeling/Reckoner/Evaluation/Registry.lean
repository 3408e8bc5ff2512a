import Reckoner.Evaluation.Promotion
import Reckoner.Evaluation.Scope
import Reckoner.Expr.Operator
import Reckoner.Text.Lowercase

/-!
# Registries

A registry holds what has been registered under names: operators and functions, of values and of
unreduced expressions, implementations of numbers, and documentation.  It also holds the caches of
the evaluations that use it.

The implementations are gone through in an order that the registry does not choose.  It makes a
difference only where several of them serve one representation.
-/

namespace Reckoner

/-- A help text: the name in expressions, the name in prose, a summary and an explanation, and
whether it is about a function of values or of unreduced expressions. -/
structure Documentation where
  codeName : String
  name : String
  description : String
  longDescription : String
  mode : Mode
  deriving DecidableEq, Repr

namespace Documentation

/-- Whether one of the texts contains the query, letter case aside. -/
def mentions (entry : Documentation) (query : String) : Bool :=
  let sought := Text.lowercase query.toList
  [entry.codeName, entry.name, entry.description, entry.longDescription].any
    (fun text => Text.containsRun sought (Text.lowercase text.toList))

end Documentation
/-- An operator: how it is read and what it does. -/
structure Operator (φ : Type) where
  spec : OperatorSpec
  function : φ

/-- Everything that has been registered. -/
structure Registry where
  operators : Table (Operator NumberFunction)
  treeOperators : Table (Operator TreeFunction)
  functions : Table NumberFunction
  treeFunctions : Table TreeFunction
  implementations : Table NumberImplementation
  documentation : List Documentation
  promotions : Promotions
  caches : Caches
  order : Traversal NumberImplementation

namespace Registry

/-- Nothing has been registered. -/
def empty : Registry :=
  ⟨.empty, .empty, .empty, .empty, .empty, [], .empty, .empty, .byName⟩

instance : Inhabited Registry := ⟨empty⟩

/-- Register an operator on values. -/
def registerOperator (registry : Registry) (name : String) (spec : OperatorSpec)
    (function : NumberFunction) : Registry :=
  { registry with operators := registry.operators.insert name ⟨spec, function⟩ }

/-- Register an operator on unreduced expressions. -/
def registerTreeOperator (registry : Registry) (name : String) (spec : OperatorSpec)
    (function : TreeFunction) : Registry :=
  { registry with treeOperators := registry.treeOperators.insert name ⟨spec, function⟩ }

/-- Register a function of values. -/
def registerFunction (registry : Registry) (name : String) (function : NumberFunction) : Registry :=
  { registry with functions := registry.functions.insert name function }

/-- Register a function of unreduced expressions. -/
def registerTreeFunction (registry : Registry) (name : String) (function : TreeFunction) :
    Registry :=
  { registry with treeFunctions := registry.treeFunctions.insert name function }

/-- Register an implementation of numbers. -/
def registerImplementation (registry : Registry) (name : String)
    (implementation : NumberImplementation) : Registry :=
  { registry with implementations := registry.implementations.insert name implementation }

/-- Register documentation as the latest entry, in place of one for the same name and mode. -/
def registerDocumentation (registry : Registry) (entry : Documentation) : Registry :=
  { registry with
    documentation :=
      registry.documentation.filter
        (fun other => !(other.codeName == entry.codeName && other.mode == entry.mode)) ++ [entry] }

/-- Whether no operator, function or implementation is registered. -/
def isEmpty (registry : Registry) : Bool :=
  registry.operators.isEmpty && registry.treeOperators.isEmpty && registry.functions.isEmpty &&
    registry.treeFunctions.isEmpty && registry.implementations.isEmpty

/-- The names of a name space, in order. -/
def names (registry : Registry) : Symbol → List String
  | .operator .value => registry.operators.names
  | .operator .tree => registry.treeOperators.names
  | .function .value => registry.functions.names
  | .function .tree => registry.treeFunctions.names

/-- How an operator is read. -/
def spec? (registry : Registry) (mode : Mode) (name : String) : Option OperatorSpec :=
  match mode with
  | .value => (registry.operators.find? name).map Operator.spec
  | .tree => (registry.treeOperators.find? name).map Operator.spec

/-- The grammar of the registered names. -/
def grammar (registry : Registry) : Grammar :=
  ⟨registry.names, registry.spec?⟩

/-- The implementation of a name. -/
def implementation (registry : Registry) (name : String) : Except Failure NumberImplementation :=
  match registry.implementations.find? name with
  | some found => .ok found
  | none => .error (.unknownNumberImplementation name)

/-- The implementations with their names, in the order in which they are gone through. -/
def arranged (registry : Registry) : List (String × NumberImplementation) :=
  registry.implementations.entriesIn registry.order

/-- The first implementation of a representation, with its name. -/
def implementationFor? (registry : Registry) (kind : NumberKind) :
    Option (String × NumberImplementation) :=
  registry.arranged.find? (fun entry => entry.2.kind = kind)

/-- The documentation of a name. -/
def documentation? (registry : Registry) (codeName : String) (mode : Mode) : Option Documentation :=
  registry.documentation.find? (fun entry => entry.codeName == codeName && entry.mode == mode)

/-- The documentation that mentions a query. -/
def search (registry : Registry) (query : String) : List Documentation :=
  registry.documentation.filter (·.mentions query)

/-- Work out the promotions between the registered implementations, going through these in an order
that is kept. -/
def rebuildPromotions (registry : Registry) (order : Traversal NumberImplementation) : Registry :=
  { registry with
    order
    promotions := .ofImplementations (registry.implementations.entriesIn order) }

/-- Pi in a representation, worked out at its first use. -/
def pi (registry : Registry) (kind : NumberKind) : Calc Number := do
  match (← getThe Caches).pi.get kind with
  | some known => pure known
  | none =>
      match registry.implementationFor? kind with
      | none => Run.fail (.outsideDomain "pi" ("no implementation for '" ++ kind.name ++ "'"))
      | some (_, implementation) =>
          let value ← implementation.pi
          modifyThe Caches (·.storePi kind value)
          pure value

/-- What the functions of a registry may use when literals are read in a representation. -/
def libraryIn (registry : Registry) (kind : NumberKind) (context : Context) : Library :=
  ⟨kind, registry.pi, context⟩

/-- What the functions of a registry may use where nothing is bound. -/
def library (registry : Registry) (kind : NumberKind) : Library :=
  registry.libraryIn kind .empty

end Registry
end Reckoner
