import Reckoner.Data.Table
import Reckoner.Evaluation.Calculation

/-!
# Promotion

Operands in different representations are brought to the one of highest priority among them.  An
implementation declares into which others its numbers can be converted; only conversions that do not
lower the priority are used.
-/

namespace Reckoner

/-- A conversion of numbers into another representation. -/
abbrev Conversion := Number → Except Failure Number

/-- An implementation of numbers: its representation, its priority, its conversions by the name of
the implementation that they lead to, and its value of pi. -/
structure NumberImplementation where
  kind : NumberKind
  priority : Int
  promotions : Table Conversion
  pi : Calc Number

/-- The priorities of the representations, and the conversions between them. -/
structure Promotions where
  priority? : NumberKind → Option Int
  path? : (source target : NumberKind) → Option Conversion

namespace Promotions

/-- No representation is known. -/
def empty : Promotions :=
  ⟨fun _ => none, fun _ _ => none⟩

/-- The conversion that one implementation declares into another, if it may be used. -/
def declared?
    (source : NumberImplementation)
    (targetName : String)
    (target : NumberImplementation) :
    Option Conversion :=
  if source.kind = target.kind ∨ target.priority < source.priority then none
  else source.promotions.find? targetName

/-- The conversions that implementations declare between two representations, in the order of the
implementations. -/
def paths
    (implementations : List (String × NumberImplementation))
    (source target : NumberKind) :
    List Conversion :=
  implementations.flatMap (fun first =>
    implementations.filterMap (fun second =>
      if first.2.kind = source ∧ second.2.kind = target then declared? first.2 second.1 second.2
      else none))

/-- The promotions between implementations; of several that serve one representation, the last one
counts. -/
def ofImplementations (implementations : List (String × NumberImplementation)) : Promotions where
  priority? kind :=
    (implementations.reverse.find? (fun entry => entry.2.kind = kind)).map (·.2.priority)
  path? source target := (paths implementations source target).getLast?

/-- Convert a number into a representation. -/
def promoteTo (promotions : Promotions) (number : Number) (target : NumberKind) :
    Except Failure Number :=
  if number.kind = target then .ok number
  else
    match promotions.path? number.kind target with
    | some convert => convert number
    | none => .error (.noPromotionPath number.kind.name target.name)

/-- The better of the best representation so far, with its priority, and that of a number. -/
def consider (promotions : Promotions) (best : Option (Int × NumberKind)) (number : Number) :
    Except Failure (Option (Int × NumberKind)) :=
  match promotions.priority? number.kind with
  | none => .error (.noPromotionPath number.kind.name "any registered implementation")
  | some priority =>
      match best with
      | some (highest, _) =>
          if priority ≤ highest then .ok best else .ok (some (priority, number.kind))
      | none => .ok (some (priority, number.kind))

/-- The representation of highest priority among numbers. -/
def target (promotions : Promotions) (numbers : List Number) : Except Failure (Option NumberKind) :=
  (numbers.foldlM promotions.consider none).map (Option.map Prod.snd)

/-- Bring numbers to the representation of highest priority among them. -/
def promote (promotions : Promotions) (numbers : List Number) : Except Failure (List Number) :=
  match promotions.target numbers with
  | .error failure => .error failure
  | .ok none => .ok []
  | .ok (some target) => numbers.mapM (promotions.promoteTo · target)

end Promotions

/-- All numbers between two bounds, both included. -/
structure NumberRange where
  start : Number
  stop : Number
  deriving DecidableEq, Repr

/-- Whether a number lies in a range, after all three have been brought to one representation. -/
def NumberRange.contains (range : NumberRange) (promotions : Promotions) (value : Number) :
    Except Failure Bool := do
  let found ← promotions.target [range.start, range.stop, value]
  let target := found.getD value.kind
  let start ← promotions.promoteTo range.start target
  let stop ← promotions.promoteTo range.stop target
  let inside ← promotions.promoteTo value target
  let above ← inside.compare start
  if above = .lt then return false
  let below ← inside.compare stop
  return below != .gt

end Reckoner
