/-!
# Operators

How an operator name is read: on which side of its operands it stands, how tightly it binds, and to
which side it groups.  Names live in four separate name spaces, told apart by `Symbol`.  A grammar
says which names exist in each of them.
-/

namespace Reckoner

/-- The side to which operators of one precedence group. -/
inductive Associativity
  | left
  | right
  deriving DecidableEq, Repr

/-- Where an operator stands relative to its operands. -/
inductive Fixity
  | between
  | before
  | after
  deriving DecidableEq, Repr

namespace Fixity

/-- An operator that does not stand between two operands has one. -/
def isUnary (fixity : Fixity) : Bool :=
  fixity != .between

/-- The number of operands that an operator takes. -/
def arity (fixity : Fixity) : Nat :=
  if fixity.isUnary then 1 else 2

/-- The name of a fixity. -/
def name : Fixity → String
  | .between => "infix"
  | .before => "prefix"
  | .after => "postfix"

end Fixity

/-- How an operator name is read; a higher precedence binds tighter. -/
structure OperatorSpec where
  associativity : Associativity
  fixity : Fixity
  precedence : Int
  deriving DecidableEq, Repr

namespace OperatorSpec

/-- An operator between two operands. -/
def binary (associativity : Associativity) (precedence : Int) : OperatorSpec :=
  ⟨associativity, .between, precedence⟩

/-- An operator in front of its operand. -/
def leading (precedence : Int) : OperatorSpec :=
  ⟨.left, .before, precedence⟩

/-- An operator behind its operand. -/
def trailing (precedence : Int) : OperatorSpec :=
  ⟨.left, .after, precedence⟩

end OperatorSpec

/-- Whether a name receives the values of its operands or the unreduced operands themselves. -/
inductive Mode
  | value
  | tree
  deriving DecidableEq, Repr

/-- The four name spaces of a grammar. -/
inductive Symbol
  | operator (mode : Mode)
  | function (mode : Mode)
  deriving DecidableEq, Repr

namespace Symbol

/-- Every name space, in the order in which a grammar is read. -/
def all : List Symbol :=
  [.operator .value, .operator .tree, .function .value, .function .tree]

/-- Whether the names of a name space are operators. -/
def isOperator : Symbol → Bool
  | .operator _ => true
  | .function _ => false

/-- Whether the names of a name space receive unreduced operands. -/
def isTreeValue : Symbol → Bool
  | .operator mode => mode == .tree
  | .function mode => mode == .tree

end Symbol

/-- The names of each name space, and how each operator is read. -/
structure Grammar where
  names : Symbol → List String
  spec? : Mode → String → Option OperatorSpec

/-- The grammar without names. -/
def Grammar.empty : Grammar :=
  ⟨fun _ => [], fun _ _ => none⟩

end Reckoner
