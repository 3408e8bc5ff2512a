import Mathlib.Analysis.Real.Pi.Bounds
import Mathlib.Analysis.SpecialFunctions.Complex.Arctan
import Reckoner.Proofs.Number.Precision
import Reckoner.Proofs.Standard.Completion

/-!
# Pi as a precise number

The calculation of pi depends on nothing, so that running it once tells what it gives at any
time.  All of its digits but the last are those of pi, which the arctangents of a fifth and of
the 239th part show.
-/

namespace Reckoner
namespace Standard

open Run

/-- The digits of pi that are worked out. -/
def piDigits : Decimal :=
  ⟨31415926535897932384626433832795028841971693993751058209749445926, 64⟩

theorem value_piDigits :
    piDigits.value = 31415926535897932384626433832795028841971693993751058209749445926 /
        10 ^ 64 := by
  norm_num [piDigits, Decimal.value_mk]

/-- Half of pi needs no rounding. -/
theorem roundSignificant_half_piDigits :
    roundSignificant Decimal.internalPrecision (piDigits.value / 2) = piDigits.value / 2 := by
  have half :
      (⟨15707963267948966192313216916397514420985846996875529104874722963, 64⟩ : Decimal).value =
      piDigits.value / 2 := by
    norm_num [Decimal.value_mk, value_piDigits]
  exact HasDigits.roundSignificant_eq ⟨_, by decide +kernel, half⟩

/-! ## The calculation -/

/-- What the series of pi comes to, digit by digit. -/
theorem precisePi_eq : (precisePi 200 ⟨.never, .empty⟩).1 = .ok (.precise piDigits) := by
  decide +kernel

/-- Without cancellation the registry's pi is there, whether it is kept already or not. -/
theorem completes_pi :
    Completes (registry.Keeps Caches.AreTables) (registry.pi .precise) (· = .precise piDigits) := by
  have found : registry.implementationFor? .precise = some (preciseName, precise) := rfl
  have first : (registry.pi .precise 200 ⟨.never, .empty⟩).1 = .ok (.precise piDigits) := by
    rw [Registry.pi_eq_remember found, fst_remember_of_none rfl]
    exact precisePi_eq
  have obtained : Obtains (registry.Keeps Caches.AreTables) (registry.pi .precise)
      (.precise piDigits) :=
    ⟨200, ⟨.never, .empty⟩, registry.keeps_empty Caches.areTables_empty, first⟩
  obtain ⟨bound, settled⟩ := obtained.settles (steady_pi_registry .precise)
  exact ⟨_, rfl, bound, settled⟩

/-! ## Its digits -/

open Finset

/-- The first terms of the series of the arctangent. -/
def arctanSum (number : ℚ) (count : Nat) : ℚ :=
  ∑ index ∈ range count, number * (-number ^ 2) ^ index / (2 * index + 1 : Nat)

theorem arctanSum_succ (number : ℚ) (count : Nat) :
    arctanSum number (count + 1) =
      arctanSum number count + number * (-number ^ 2) ^ count / (2 * count + 1 : Nat) := by
  rw [arctanSum, sum_range_succ]
  rfl

/-- The terms of the arctangent have changing signs and become smaller, so that the first one
that is left out bounds what is left out. -/
theorem abs_arctanSum_sub_le {number : ℚ} (nonneg : 0 ≤ number) (small : number < 1) (count : Nat) :
    |(arctanSum number count : ℝ) - Real.arctan number| ≤
      number * (number ^ 2) ^ count / (2 * count + 1 : Nat) := by
  have least : (0 : ℝ) ≤ number := by exact_mod_cast nonneg
  have most : (number : ℝ) < 1 := by exact_mod_cast small
  have square : (number : ℝ) ^ 2 < 1 := pow_lt_one₀ least most two_ne_zero
  have falling :
      Antitone fun index : Nat => (number : ℝ) * (number ^ 2) ^ index / (2 * index + 1 : Nat) := by
    intro first second less
    have powers : ((number : ℝ) ^ 2) ^ second ≤ (number ^ 2) ^ first :=
      pow_le_pow_of_le_one (by positivity) square.le less
    dsimp only
    gcongr
  have summable :
      Summable fun index : Nat => (number : ℝ) * (number ^ 2) ^ index / (2 * index + 1 : Nat) := by
    refine .of_nonneg_of_le (fun index => by positivity) (fun index => ?_)
      ((summable_geometric_of_lt_one (by positivity) square).mul_left (number : ℝ))
    exact div_le_self (by positivity) (by exact_mod_cast (2 * index).succ_pos)
  have term (index : Nat) : (number : ℝ) * (-number ^ 2) ^ index / (2 * index + 1 : Nat) =
      (-1) ^ index * (number * (number ^ 2) ^ index / (2 * index + 1 : Nat)) := by
    rw [neg_pow]
    ring
  have limit : Real.arctan number =
      tsum fun index : Nat =>
        (-1) ^ index * ((number : ℝ) * (number ^ 2) ^ index / (2 * index + 1 : Nat)) := by
    have size : ‖(number : ℝ)‖ < 1 := by rwa [Real.norm_of_nonneg least]
    rw [← (Real.hasSum_arctan size).tsum_eq]
    refine tsum_congr fun index => ?_
    rw [pow_succ, pow_mul]
    ring
  have error := alternating_series_error_bound _ falling summable count
  rw [abs_sub_comm, limit, arctanSum]
  push_cast at error term ⊢
  simp only [term]
  exact error

/-- The digits are those of pi, but for the last one. -/
theorem abs_piDigits_sub_pi_le : |(piDigits.value : ℝ) - Real.pi| ≤ 1 / 10 ^ 63 := by
  have fifth : |(arctanSum 5⁻¹ 46 : ℝ) - Real.arctan 5⁻¹| ≤ 2 / 10 ^ 65 := by
    have bound := abs_arctanSum_sub_le (show (0 : ℚ) ≤ 5⁻¹ by norm_num) (by norm_num) 46
    push_cast at bound
    exact bound.trans (by norm_num)
  have other : |(arctanSum 239⁻¹ 14 : ℝ) - Real.arctan 239⁻¹| ≤ 2 / 10 ^ 65 := by
    have bound := abs_arctanSum_sub_le (show (0 : ℚ) ≤ 239⁻¹ by norm_num) (by norm_num) 14
    push_cast at bound
    exact bound.trans (by norm_num)
  have sums :
      |(4 * (4 * arctanSum 5⁻¹ 46 - arctanSum 239⁻¹ 14) : ℝ) - piDigits.value| ≤ 5 / 10 ^ 64 := by
    have rational :
        |4 * (4 * arctanSum 5⁻¹ 46 - arctanSum 239⁻¹ 14) - piDigits.value| ≤ 5 / 10 ^ 64 := by
      rw [value_piDigits]
      norm_num [arctanSum, sum_range_succ]
    have cast := (Rat.cast_le (K := ℝ)).2 rational
    push_cast at cast
    exact cast
  have pi : Real.pi = 4 * (4 * Real.arctan 5⁻¹ - Real.arctan 239⁻¹) := by
    rw [Real.four_mul_arctan_inv_5_sub_arctan_inv_239]
    ring
  obtain ⟨fifthLower, fifthUpper⟩ := abs_le.1 fifth
  obtain ⟨otherLower, otherUpper⟩ := abs_le.1 other
  obtain ⟨lower, upper⟩ := abs_le.1 sums
  rw [pi, abs_le]
  constructor <;> linarith

end Standard
end Reckoner
