import Reckoner.Proofs.Standard.Logarithm

/-!
# Logarithms of all magnitudes

The argument of a logarithm may be a hundred million digits away from the decimal point.  As many
halvings or doublings as it takes bring it near one, and however many these are, what is lost in
them is one rounding for each halving.  From there on the series does not depend on where the
argument came from.
-/

namespace Reckoner
namespace Elementary

open Run Decimal

section

variable {argument value : Decimal} {count : Nat} {halvings : Int}
  (scaled : IsScaled argument.value count value halvings)

include scaled

/-- What is left after the reduction and its halvings give the argument back, up to the errors
of the halvings. -/
theorem IsScaled.abs_sub_le
    (nonneg : 0 ≤ argument.value)
    (few : count * roundingError internalPrecision ≤ 1 / 10) :
    |value.value * 2 ^ halvings - argument.value| ≤
      |halvings| * 10 ^ (-64 : Int) * argument.value := by
  have total := scaled.total
  have unit := roundingError_internalPrecision
  have exact : (0 : ℝ) ≤ argument.value := by exact_mod_cast nonneg
  have most : (halvings.toNat : ℝ) ≤ count := by
    exact_mod_cast (show halvings.toNat ≤ count by omega)
  have times : (halvings.toNat : ℝ) ≤ |(halvings : ℝ)| := by
    rw [← Int.cast_abs, ← Int.cast_natCast (R := ℝ), Int.cast_le, Int.abs_eq_natAbs]
    omega
  have small : halvings.toNat * roundingError internalPrecision ≤ 1 / 10 :=
    (mul_le_mul_of_nonneg_right most (roundingError_pos _).le).trans few
  have close := scaled.moved.near.abs_sub_le small
  rw [abs_of_nonneg exact, unit] at close
  refine (Rat.cast_le (K := ℝ)).1 ?_
  push_cast
  calc |(value.value : ℝ) * 2 ^ halvings - argument.value|
    _ ≤ 10 / 9 * (halvings.toNat * (3 / 5 / 10 ^ 64)) * argument.value := close
    _ = halvings.toNat * (10 / 9 * (3 / 5 / 10 ^ 64)) * argument.value := by ring
    _ ≤ |(halvings : ℝ)| * 10 ^ (-64 : Int) * argument.value := by
      gcongr
      norm_num

/-- Doublings lose nothing. -/
theorem IsScaled.eq_of_nonpos (doubled : halvings ≤ 0) :
    value.value * 2 ^ halvings = argument.value := by
  have none : halvings.toNat = 0 := by omega
  have near := scaled.moved.near
  rw [none, Nat.cast_zero, zero_mul] at near
  have close := near.abs_sub_le (by norm_num)
  rw [mul_zero, zero_mul, abs_nonpos_iff, sub_eq_zero] at close
  refine Rat.cast_injective (α := ℝ) ?_
  push_cast
  exact close

end

/-- Four powers of two are more than a power of ten. -/
theorem within_powers_of_two
    {number : ℚ}
    {magnitude : Nat}
    (lower : 10 ^ (-(magnitude : Int)) ≤ number)
    (upper : number ≤ 10 ^ magnitude) :
    ((2 : ℝ) ^ (4 * magnitude))⁻¹ ≤ number ∧ (number : ℝ) ≤ 2 ^ (4 * magnitude) := by
  have powers : (10 : ℝ) ^ magnitude ≤ 2 ^ (4 * magnitude) := by
    rw [pow_mul]
    exact pow_le_pow_left₀ (by norm_num) (by norm_num) magnitude
  have below : ((10 ^ (-(magnitude : Int)) : ℚ) : ℝ) ≤ number := Rat.cast_le.2 lower
  have above : (number : ℝ) ≤ ((10 ^ magnitude : ℚ) : ℝ) := Rat.cast_le.2 upper
  push_cast at below above
  rw [zpow_neg, zpow_natCast] at below
  constructor
  · exact (inv_anti₀ (by positivity) powers).trans below
  · exact above.trans powers

open Standard in
/-- The logarithm of every number within a hundred million orders of magnitude is worked out: the
argument arrives near one after so many halvings, which lose a rounding each, or doublings, which
lose nothing, and from there the series goes on until its last term does not count any more.  The
logarithm is put together from the sum of the series and the logarithm of two for each halving,
and so it is close to the true one. -/
theorem ln_converges
    {argument : Decimal}
    (lower : 10 ^ (-(10 ^ 8 : Nat) : Int) ≤ argument.value)
    (upper : argument.value ≤ 10 ^ (10 ^ 8)) :
    ∃ (value : Decimal) (halvings : Int) (last : LnSeries) (term sum two : Decimal),
      Gives
        (repeatUntil (scaleStep (.precise .one) (.precise (.ofInt 2)) (.precise ⟨1, 1⟩))
          (.precise argument, 0))
        (.precise value, halvings) ∧
      11 / 20 ≤ value.value ∧ value.value ≤ 9 / 5 ∧
      |value.value * 2 ^ halvings - argument.value| ≤
        |halvings| * 10 ^ (-64 : Int) * argument.value ∧
      (halvings ≤ 0 → value.value * 2 ^ halvings = argument.value) ∧
      Relation.ReflTransGen (fun series next => Gives (lnStep value series) (.inl next))
        (lnStart (value.sub .one)) last ∧
      Gives (lnStep value last) (.inr (.precise sum)) ∧
      last.term = .precise term ∧ |term.value| ≤ value.maxError.value ∧
      Gives (lnNearOne (.precise value)) (.precise sum) ∧
      Gives (lnTwo .precise) (.precise two) ∧
      Gives (ln (.precise argument)) (.precise (joined two sum halvings)) ∧
      |((joined two sum halvings).value : ℝ) - Real.log argument.value| ≤
        (16 * 10 ^ 8 + 15) / 10 ^ 64 := by
  obtain ⟨least, most⟩ := within_powers_of_two lower upper
  have few : ((4 * 10 ^ 8 : Nat) + 1 : ℝ) * roundingError internalPrecision ≤ 1 / 10 := by
    rw [roundingError_internalPrecision]
    norm_num
  have nonneg : 0 ≤ argument.value := lower.trans' (by positivity)
  have positive : (0 : ℝ) < argument.value := least.trans_lt' (by positivity)
  obtain ⟨_, ⟨value, halvings, rfl, scaled⟩, scales⟩ := (completes_scaling least most few).settle
  obtain ⟨last, term, sum, ends, trace, stops, sums⟩ :=
    @lnNearOne_trace Caches.AreTables _ scaled.lower scaled.upper
  obtain ⟨_, ⟨two, rfl, closeTwo⟩, twos⟩ := (completes_lnTwo completes_lnTwoSeries).settle
  have joins := completes_ln_of_parts (by exact_mod_cast positive) scales sums twos
  have close := scaled.abs_joined_sub_le positive ends.accurate closeTwo
  refine ⟨value, halvings, last, term, sum, two, gives_of_completes_eq scales, scaled.lower,
    scaled.upper, scaled.abs_sub_le nonneg (by exact_mod_cast few), scaled.eq_of_nonpos, ?_,
    gives_of_completes_eq stops, ends.ends, ends.small, gives_of_completes_eq sums,
    gives_of_completes_eq twos, gives_of_completes_eq joins, close.trans ?_⟩
  · exact Relation.ReflTransGen.mono (fun _ _ => gives_of_completes_eq) _ _ trace
  · norm_num

open Standard in
/-- The least argument of all, which only doublings bring near one. -/
theorem ln_converges_least :
    10 ^ (-(10 ^ 8 : Nat) : Int) ≤ (⟨1, (10 ^ 8 : Nat)⟩ : Decimal).value ∧
      (⟨1, (10 ^ 8 : Nat)⟩ : Decimal).value ≤ 10 ^ (10 ^ 8) ∧
      ∃ (value : Decimal) (halvings : Int) (logarithm : Decimal),
        Gives
          (repeatUntil (scaleStep (.precise .one) (.precise (.ofInt 2)) (.precise ⟨1, 1⟩))
            (.precise ⟨1, (10 ^ 8 : Nat)⟩, 0))
          (.precise value, halvings) ∧
        11 / 20 ≤ value.value ∧ value.value ≤ 9 / 5 ∧
        |value.value * 2 ^ halvings - 10 ^ (-(10 ^ 8 : Nat) : Int)| ≤
          |halvings| * 10 ^ (-64 : Int) * 10 ^ (-(10 ^ 8 : Nat) : Int) ∧
        Gives (ln (.precise ⟨1, (10 ^ 8 : Nat)⟩)) (.precise logarithm) := by
  have value : (⟨1, (10 ^ 8 : Nat)⟩ : Decimal).value = 10 ^ (-(10 ^ 8 : Nat) : Int) := by
    rw [value_mk, Int.cast_one, one_mul]
  have lower := value.ge
  have upper : (⟨1, (10 ^ 8 : Nat)⟩ : Decimal).value ≤ 10 ^ (10 ^ 8) := by
    rw [value]
    have below : (-(10 ^ 8 : Nat) : Int) ≤ 0 := neg_nonpos.2 (Int.natCast_nonneg _)
    exact (zpow_le_one_of_nonpos₀ (by norm_num) below).trans (one_le_pow₀ (by norm_num))
  obtain ⟨near, halvings, _, _, _, _, scales, least, most, close, -, -, -, -, -, -, -, gives, -⟩ :=
    ln_converges lower upper
  rw [value] at close
  exact ⟨lower, upper, near, halvings, _, scales, least, most, close, gives⟩

end Elementary
end Reckoner
