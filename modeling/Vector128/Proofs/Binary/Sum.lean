/-
Sums and differences that are values are not rounded.

What is exact about an operation is that its result has few enough digits. The digits of a finite value are such
(`Binary.exists_digits`), so whatever number of units a value has is rounded to that value again (`Binary.ofUnits_value`).
A sum of finite values is rounded from the sum of their units, and it is exact if there is a value of so many units
(`Binary.add_exact`); so is a difference (`Binary.sub_exact`).
-/
import Vector128.Proofs.Binary.Widening

namespace Vector128.Binary

variable {f : Format} {x y z : Binary f}

theorem exists_digits (he : 2 ≤ f.exponentBits) (hx : x.isFinite = true) :
    ∃ r shift, r < 2 * f.binade ∧ x.units.natAbs = r * 2 ^ shift ∧ r * 2 ^ shift < f.finiteUnits := by
  obtain ⟨r, shift, hr, hcode⟩ := f.exists_aligned_code x.code.toNat
  have hfin : x.code.toNat < f.infinityCode := of_decide_eq_true hx
  refine ⟨r, shift, hr.digits, ?_, hr.lt_finiteUnits he (hcode ▸ hfin)⟩
  rw [natAbs_units, hcode, hr.unitsOf]

theorem ofUnits_digits (he : 2 ≤ f.exponentBits) (negative : Bool) {q k n : Nat} (hn : n = q * 2 ^ k)
    (hq : q < 2 * f.binade) (hfin : n < f.finiteUnits) :
    (ofUnits negative n 1 : Binary f).isFinite = true ∧
      (ofUnits negative n 1 : Binary f).units = if negative then -(n : Int) else n := by
  subst hn
  have h := ofUnits_exact he negative hq hfin Nat.one_pos
  rwa [Nat.mul_one] at h

/-- the units of a value are rounded to that value, up to the sign of a zero -/
theorem ofUnits_value (he : 2 ≤ f.exponentBits) (hz : z.isFinite = true) {negative : Bool}
    (hsign : z.units ≠ 0 → negative = decide (z.units < 0)) :
    (ofUnits negative z.units.natAbs 1 : Binary f).isFinite = true ∧
      (ofUnits negative z.units.natAbs 1 : Binary f).units = z.units := by
  obtain ⟨r, shift, hr, hunits, hfin⟩ := exists_digits he hz
  obtain ⟨hfinite, hsigned⟩ := ofUnits_digits he negative hunits hr (hunits ▸ hfin)
  refine ⟨hfinite, hsigned.trans ?_⟩
  by_cases hzero : z.units = 0
  · rw [hzero, Int.natAbs_zero, Nat.cast_zero, neg_zero, ite_self]
  · rw [hsign hzero]
    simp only [decide_eq_true_eq]
    split_ifs <;> omega

/-- a sum of finite values is their rounded sum; only a sum of zeros has another sign than the integer -/
theorem add_of_isFinite (hx : x.isFinite = true) (hy : y.isFinite = true) :
    ∃ negative, x.add y = ofUnits negative (x.units + y.units).natAbs 1 ∧
      (x.units + y.units ≠ 0 → negative = decide (x.units + y.units < 0)) := by
  refine ⟨if x.units + y.units = 0 then x.negative && y.negative else decide (x.units + y.units < 0), ?_, ?_⟩
  · simp only [add, orNaN, addNumbers, isNaN_of_isFinite hx, isNaN_of_isFinite hy, isInfinite_of_isFinite hx,
      isInfinite_of_isFinite hy, Bool.false_eq_true, if_false]
  · intro hne
    rw [if_neg hne]

/-- **A sum that is a value is exact.** -/
theorem add_exact (he : 2 ≤ f.exponentBits) (hx : x.isFinite = true) (hy : y.isFinite = true) (hz : z.isFinite = true)
    (h : x.units + y.units = z.units) : (x.add y).isFinite = true ∧ (x.add y).units = z.units := by
  obtain ⟨negative, hadd, hsign⟩ := add_of_isFinite hx hy
  rw [h] at hadd hsign
  rw [hadd]
  exact ofUnits_value he hz hsign

theorem units_neg (x : Binary f) : x.neg.units = -x.units := by
  rw [units, units, neg]
  cases x.negative with
  | false => rfl
  | true => exact (neg_neg _).symm

/-- **A difference that is a value is exact.** -/
theorem sub_exact (he : 2 ≤ f.exponentBits) (hx : x.isFinite = true) (hy : y.isFinite = true) (hz : z.isFinite = true)
    (h : x.units - y.units = z.units) : (x.sub y).isFinite = true ∧ (x.sub y).units = z.units := by
  have hneg : y.neg.isFinite = true := hy
  have hsub : x.sub y = x.add y.neg := by
    simp only [sub, add, orNaN, isNaN_of_isFinite hx, isNaN_of_isFinite hy, isNaN_of_isFinite hneg,
      Bool.false_eq_true, if_false]
  rw [hsub]
  refine add_exact he hx hneg hz ?_
  rw [units_neg, ← Int.sub_eq_add_neg, h]

end Vector128.Binary
