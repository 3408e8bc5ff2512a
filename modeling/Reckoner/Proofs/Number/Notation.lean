import Reckoner.Proofs.Number.Denotation

/-!
# The choice of a notation

A text has a power of ten when the first digit stands more than six places behind the point, or
when there are more digits in front of the point than are shown.  For a number other than zero
this is a matter of its value, since where the first digit stands is.  Zero has no first digit,
and the one that is written for it stands where the scale says.
-/

namespace Reckoner
namespace Decimal

/-! ## Characters -/

/-- The places of a first digit for which there is no power of ten. -/
def IsOrdinaryPlace (place : Int) : Prop :=
  leastPositional ≤ place ∧ place < outputPrecision

instance (place : Int) : Decidable (IsOrdinaryPlace place) :=
  inferInstanceAs (Decidable (_ ∧ _))

theorem notMem_decimalDigits (size : Nat) : 'E' ∉ decimalDigits size :=
  fun member => absurd (isDigit_of_mem_decimalDigits member) (by decide)

theorem notMem_positional (size : Nat) (scale : Int) :
    'E' ∉ positional (decimalDigits size) scale := by
  have noLetter := notMem_decimalDigits size
  have noTake (count : Nat) : 'E' ∉ (decimalDigits size).take count :=
    fun member => noLetter (List.mem_of_mem_take member)
  have noDrop (count : Nat) : 'E' ∉ (decimalDigits size).drop count :=
    fun member => noLetter (List.mem_of_mem_drop member)
  unfold positional
  split
  next =>
    split
    · exact noLetter
    · simp [noLetter]
  next =>
    split
    · simp [noTake, noDrop]
    · simp [noLetter]

/-- There is no power of ten exactly when the first digit stands in an ordinary place. -/
theorem notMem_chars_iff (number : Decimal) :
    'E' ∉ number.chars ↔ IsOrdinaryPlace number.firstPlace := by
  have unsigned : 'E' ∉ number.chars ↔ 'E' ∉ number.sizeChars := by
    rw [chars_eq]
    split <;> simp
  rw [unsigned, sizeChars, length_decimalDigits]
  split
  next extreme =>
    refine iff_of_false (not_not_intro (mem_scientific _ _)) ?_
    unfold IsOrdinaryPlace firstPlace digits
    omega
  next ordinary =>
    refine iff_of_true (notMem_positional _ _) ?_
    unfold IsOrdinaryPlace firstPlace digits
    omega

/-! ## Values -/

theorem digits_of_value_eq_zero {number : Decimal} (zero : number.value = 0) :
    number.digits = 1 := by
  rw [digits, value_eq_zero_iff.1 zero, digitCount_eq_log]
  rfl

theorem firstPlace_of_value_eq_zero {number : Decimal} (zero : number.value = 0) :
    number.firstPlace = -number.scale := by
  rw [firstPlace, digits_of_value_eq_zero zero]
  omega

/-- The first digit of a number stands in an ordinary place when the number is neither below a
millionth nor so large that its digits do not suffice. -/
theorem isOrdinaryPlace_log_iff {size : ℚ} (positive : 0 < size) :
    IsOrdinaryPlace (Int.log 10 size) ↔ 10 ^ (-6 : Int) ≤ size ∧ size < 10 ^ 50 := by
  have least : leastPositional ≤ Int.log 10 size ↔ (10 : ℚ) ^ (-6 : Int) ≤ size := by
    exact_mod_cast (Int.zpow_le_iff_le_log (b := 10) (by decide) positive).symm
  have greatest : Int.log 10 size < outputPrecision ↔ size < (10 : ℚ) ^ 50 := by
    exact_mod_cast log_lt_iff positive 50
  exact and_congr least greatest

/-- Whether a number is zero, or is of ordinary size when it is rounded to the digits that are
shown. -/
def IsOrdinarySize (number : ℚ) : Prop :=
  number = 0 ∨ 10 ^ (-6 : Int) ≤ |roundSignificant outputPrecision number| ∧
    |roundSignificant outputPrecision number| < 10 ^ 50

/-- Whether a number is not zero, or is a zero whose digit stands in an ordinary place. -/
def IsPlaced (number : Decimal) : Prop :=
  number.value ≠ 0 ∨ -50 < number.scale ∧ number.scale ≤ 6

theorem notMem_toText_iff (number : Decimal) :
    'E' ∉ number.toText.toList ↔ IsOrdinarySize number.value ∧ number.IsPlaced := by
  rw [toList_toText, notMem_chars_iff]
  by_cases zero : number.value = 0
  · have single : number.digits ≤ outputPrecision := by
      rw [digits_of_value_eq_zero zero]
      decide
    rw [rounded_of_le single, firstPlace_of_value_eq_zero zero, and_iff_right (.inl zero), IsPlaced,
      or_iff_right (not_not_intro zero)]
    unfold IsOrdinaryPlace leastPositional outputPrecision
    omega
  · have shown : (number.rounded outputPrecision).value ≠ 0 := by
      rw [value_rounded]
      exact mt (roundSignificant_eq_zero_iff (by decide)).1 zero
    have placed : number.IsPlaced := .inl zero
    rw [firstPlace_eq_log shown, isOrdinaryPlace_log_iff (abs_pos.2 shown), value_rounded,
      and_iff_left placed, IsOrdinarySize, or_iff_right zero]

/-- The notation goes by the size of a number exactly when the number is not a zero with its
digit in an extreme place.  Two forms of one number are written in one notation exactly when both
or none of them are such zeros. -/
theorem plain_iff_ordinary_iff (number : Decimal) :
    (('E' ∉ number.toText.toList ↔ IsOrdinarySize number.value) ↔ number.IsPlaced) ∧
      ∀ other : Decimal, number.value = other.value →
        (('E' ∈ number.toText.toList ↔ 'E' ∈ other.toText.toList) ↔
          (number.IsPlaced ↔ other.IsPlaced)) := by
  have placed_of_extreme (extreme : ¬IsOrdinarySize number.value) : number.value ≠ 0 :=
    fun zero => extreme (.inl zero)
  have first := number.notMem_toText_iff
  refine ⟨?_, fun other same => ?_⟩
  · rw [first, and_iff_left_iff_imp]
    by_cases ordinary : IsOrdinarySize number.value
    · exact forall_prop_of_true ordinary
    · exact iff_of_true (fun holds => absurd holds ordinary) (.inl (placed_of_extreme ordinary))
  · have second := other.notMem_toText_iff
    rw [← @not_iff_not ('E' ∈ number.toText.toList), first, second, ← same]
    by_cases ordinary : IsOrdinarySize number.value
    · rw [and_iff_right ordinary, and_iff_right ordinary]
    · have nonzero := placed_of_extreme ordinary
      exact iff_of_true (iff_of_false (fun both => ordinary both.1) fun both => ordinary both.1)
        (iff_of_true (.inl nonzero) (.inl (same ▸ nonzero)))

theorem plain_iff_ordinary_iff_trailing :
    'E' ∈ (⟨1814400, 0⟩ : Decimal).toText.toList ↔ 'E' ∈ (⟨18144, -2⟩ : Decimal).toText.toList := by
  have nonzero (unscaled scale : Int) (unequal : unscaled ≠ 0) : IsPlaced ⟨unscaled, scale⟩ :=
    .inl (mt value_eq_zero_iff.1 unequal)
  refine ((plain_iff_ordinary_iff ⟨1814400, 0⟩).2 ⟨18144, -2⟩ ?_).2
    (iff_of_true (nonzero _ _ (by decide)) (nonzero _ _ (by decide)))
  norm_num [value_mk]

/-- Zero is written with a power of ten in some of its forms. -/
theorem scientific_zero :
    (⟨0, 7⟩ : Decimal).value = (⟨0, 0⟩ : Decimal).value ∧ IsOrdinarySize (⟨0, 7⟩ : Decimal).value ∧
      'E' ∈ (⟨0, 7⟩ : Decimal).toText.toList ∧ 'E' ∉ (⟨0, 0⟩ : Decimal).toText.toList := by
  have zero (scale : Int) : (⟨0, scale⟩ : Decimal).value = 0 := value_eq_zero_iff.2 rfl
  exact ⟨(zero 7).trans (zero 0).symm, .inl (zero 7), by decide +kernel, by decide +kernel⟩

end Decimal
end Reckoner
