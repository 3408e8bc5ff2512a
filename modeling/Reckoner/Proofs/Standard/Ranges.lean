import Reckoner.Proofs.Number.Shortest
import Reckoner.Proofs.Standard.UniformRegistry

/-!
# Ranges of numbers

Whether a number lies in a range is a matter of what the number and the bounds denote, in whichever
representations they are given; both bounds belong to the range.  There is one exception: among
floating point numbers the two zeros are told apart, although they denote the same number.
-/

namespace Reckoner

open Binary64 (zero)

namespace Number

/-- A number as a decimal; a floating point number stands for its shortest one. -/
def asDecimal : Number → Decimal
  | .fast value => .ofFinite value
  | .precise value => value

/-- What a number denotes. -/
def denoted (number : Number) : ℚ :=
  number.asDecimal.value

end Number

/-- All three are floating point numbers, and the value is the negative zero where the range
starts with the positive one, or the positive zero where it stops with the negative one. -/
def NumberRange.Overlooks (range : NumberRange) (value : Number) : Prop :=
  value = .fast (zero true) ∧ range.start = .fast (zero false) ∧ range.stop.kind = .fast ∨
    range.stop = .fast (zero true) ∧ value = .fast (zero false) ∧ range.start.kind = .fast

instance (range : NumberRange) (value : Number) : Decidable (range.Overlooks value) :=
  inferInstanceAs (Decidable (_ ∨ _))

/-- Only a range of fast numbers overlooks a value. -/
theorem widest_of_overlooks
    {range : NumberRange}
    {value : Number}
    (overlooks : range.Overlooks value) :
    Number.widest [range.start, range.stop, value] = .fast := by
  rcases overlooks with ⟨inside, start, stop⟩ | ⟨stop, inside, start⟩
  · rw [inside, start, Number.widest_cons, Number.widest_cons, stop]
    rfl
  · rw [inside, stop, Number.widest_cons, start]
    rfl

namespace Standard

/-! ## One representation -/

/-- A range contains what is neither below its start nor above its stop, once all three are in one
representation. -/
theorem contains_eq
    {range : NumberRange}
    {value start stop inside : Number}
    {kind : NumberKind}
    {lower upper : Ordering}
    (widest : Number.widest [range.start, range.stop, value] = kind)
    (promotesStart : registry.promotions.promoteTo range.start kind = .ok start)
    (promotesStop : registry.promotions.promoteTo range.stop kind = .ok stop)
    (promotes : registry.promotions.promoteTo value kind = .ok inside)
    (comparesStart : inside.compare start = .ok lower)
    (comparesStop : inside.compare stop = .ok upper) :
    range.contains registry.promotions value = .ok (decide (lower ≠ .lt ∧ upper ≠ .gt)) := by
  rw [NumberRange.contains, target_registry (List.cons_ne_nil _ _), widest]
  simp only [bind, Except.bind, Option.getD_some, promotesStart, promotesStop, promotes,
    comparesStart, comparesStop]
  cases lower <;> cases upper <;> rfl

/-- Fast numbers are compared by their total order. -/
theorem contains_fast (start stop value : Binary64) :
    NumberRange.contains ⟨.fast start, .fast stop⟩ registry.promotions (.fast value) =
      .ok (decide (value.order start ≠ .lt ∧ value.order stop ≠ .gt)) :=
  contains_eq rfl rfl rfl rfl rfl rfl

/-- Finite numbers become the decimals that they denote. -/
theorem promoteTo_precise {number : Number} (finite : number.isFinite = true) :
    registry.promotions.promoteTo number .precise = .ok (.precise number.asDecimal) := by
  cases number with
  | precise value => rfl
  | fast value =>
      have finite : value.isFinite = true := finite
      have converts : registry.promotions.promoteTo (.fast value) .precise =
          (Decimal.ofBinary64 value).map .precise := rfl
      rw [converts, Decimal.ofBinary64, if_pos finite]
      rfl

section Finite

variable {range : NumberRange} {value : Number} (startFinite : range.start.isFinite = true)
  (stopFinite : range.stop.isFinite = true) (finite : value.isFinite = true)

include startFinite stopFinite finite

/-- As soon as one number is precise, all are compared as the numbers that they denote. -/
theorem contains_of_precise
    (precise : Number.widest [range.start, range.stop, value] = .precise) :
    range.contains registry.promotions value =
      .ok (decide (range.start.denoted ≤ value.denoted ∧ value.denoted ≤ range.stop.denoted)) := by
  have compares := contains_eq precise (promoteTo_precise startFinite)
    (promoteTo_precise stopFinite) (promoteTo_precise finite) rfl rfl
  simp only [Decimal.order_eq_compare, ne_eq, compare_lt_iff_lt,
    compare_gt_iff_gt, not_lt] at compares
  exact compares

/-- Finite operands under the standard promotions: a range contains exactly the numbers that are
numerically between its bounds, both included, in whichever representations the three are, unless it
overlooks a zero.  Once all three have been made decimals, there is no exception. -/
theorem contains_registry :
    range.contains registry.promotions value =
        .ok (decide (range.start.denoted ≤ value.denoted ∧ value.denoted ≤ range.stop.denoted ∧
          ¬range.Overlooks value)) ∧
      ∃ start stop inside,
        registry.promotions.promoteTo range.start .precise = .ok start ∧
        registry.promotions.promoteTo range.stop .precise = .ok stop ∧
        registry.promotions.promoteTo value .precise = .ok inside ∧
        NumberRange.contains ⟨start, stop⟩ registry.promotions inside =
          .ok (decide (range.start.denoted ≤ value.denoted ∧
            value.denoted ≤ range.stop.denoted)) := by
  refine ⟨?_, _, _, _, promoteTo_precise startFinite, promoteTo_precise stopFinite,
    promoteTo_precise finite, contains_of_precise rfl rfl rfl rfl⟩
  cases widest : Number.widest [range.start, range.stop, value] with
  | precise =>
      have sees : ¬range.Overlooks value := fun overlooks => by
        rw [widest_of_overlooks overlooks] at widest
        cases widest
      rw [contains_of_precise startFinite stopFinite finite widest]
      simp only [sees, not_false_eq_true, and_true]
  | fast =>
      rcases range with ⟨start, stop⟩
      match start, stop, value with
      | .fast start, .fast stop, .fast value =>
          have startOrder := Binary64.order_eq_lt_iff finite startFinite
          have stopOrder := Binary64.order_eq_lt_iff stopFinite finite
          have swapped : value.order stop = .gt ↔ stop.order value = .lt := by
            rw [Binary64.order, Binary64.order, compare_gt_iff_gt, compare_lt_iff_lt]
          have overlooks : NumberRange.Overlooks ⟨.fast start, .fast stop⟩ (.fast value) ↔
              value = zero true ∧ start = zero false ∨ stop = zero true ∧ value = zero false := by
            simp only [NumberRange.Overlooks, Number.kind, Number.fast.injEq, and_true]
          rw [contains_fast]
          congr 1
          rw [decide_eq_decide, ne_eq, ne_eq, swapped, startOrder, stopOrder,
            overlooks, not_or, not_or,
            not_or, not_lt, not_lt]
          exact and_and_and_comm.trans and_assoc
      | .precise _, _, _ | .fast _, .precise _, _ | .fast _, .fast _, .precise _ => cases widest

end Finite

theorem denoted_zero (negative : Bool) : (Number.fast (zero negative)).denoted = 0 := by
  have none : (zero negative).size = 0 :=
    Binary64.size_of_isZero (Binary64.eq_zero_iff.1 rfl).1
  rw [Number.denoted, Number.asDecimal, Binary64.value_ofFinite, none, neg_zero, ite_self]

/-- A decimal among the three makes the zeros one. -/
theorem contains_negative_zero :
    NumberRange.contains ⟨.fast (zero false), .precise .one⟩ registry.promotions
      (.fast (zero true)) = .ok true := by
  have contains := (@contains_registry ⟨.fast (zero false), .precise .one⟩
    (.fast (zero true)) rfl rfl
    rfl).1
  have one : (Number.precise .one).denoted = 1 := Decimal.value_ofInt 1
  rw [contains]
  congr 1
  rw [decide_eq_true_eq, denoted_zero, denoted_zero, one]
  exact ⟨le_rfl, zero_le_one, by decide⟩

/-- A range from zero to one of floating point numbers does not contain the negative zero. -/
theorem not_contains_negative_zero :
    let range : NumberRange := ⟨.fast (zero false), .fast .one⟩
    let value := Number.fast (zero true)
    range.contains registry.promotions value = .ok false ∧
      range.start.denoted ≤ value.denoted ∧ value.denoted ≤ range.stop.denoted := by
  intro range value
  refine ⟨rfl, ?_, ?_⟩
  · exact ((denoted_zero false).trans (denoted_zero true).symm).le
  · have above : 0 ≤ (Number.fast .one).denoted := by
      rw [Number.denoted, Number.asDecimal, Binary64.value_ofFinite]
      exact Binary64.size_nonneg _
    exact (denoted_zero true).trans_le above

end Standard
end Reckoner
