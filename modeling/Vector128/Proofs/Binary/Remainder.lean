/-
Dropping the fraction and taking a remainder are exact.

Neither needs more digits than a finite operand has. Without its fraction a magnitude keeps its leading digits
(`Binary.trunc_exact`). A remainder is counted in the smaller of the two steps that the digits of the operands stand for;
there it is less than the digits of the divisor, or it is what is left of those of the dividend (`Binary.rem_exact`).
From zero on the floor of a value is the value without its fraction, and what it is above its floor is the remainder by
one, so that is exact too (`Binary.sub_floor_exact`).
-/
import Vector128.Proofs.Binary.Sum

namespace Vector128.Binary

variable {f : Format} {x y : Binary f}

/-- **A finite value without its fraction is a value.** -/
theorem trunc_exact (he : 2 ≤ f.exponentBits) (hx : x.isFinite = true) :
    x.trunc.isFinite = true ∧ x.trunc.units = x.units.tdiv f.one * f.one := by
  obtain ⟨r, shift, hr, hunits, hfin⟩ := exists_digits he hx
  have hle : x.units.natAbs / f.one * f.one < f.finiteUnits := (Nat.div_mul_le_self _ _).trans_lt (hunits ▸ hfin)
  have hdigits : ∃ q k, q < 2 * f.binade ∧ x.units.natAbs / f.one * f.one = q * 2 ^ k := by
    rw [hunits, Format.one_eq]
    rcases Nat.le_total f.scale shift with hwhole | hpoint
    · -- the last digit stands for ones or more
      obtain ⟨d, rfl⟩ := Nat.exists_eq_add_of_le hwhole
      refine ⟨r, f.scale + d, hr, Nat.div_mul_cancel ?_⟩
      rw [pow_add, ← mul_assoc, mul_right_comm]
      exact Nat.dvd_mul_left _ _
    · obtain ⟨d, hd⟩ := Nat.exists_eq_add_of_le hpoint
      refine ⟨r / 2 ^ d, f.scale, (Nat.div_le_self _ _).trans_lt hr, ?_⟩
      rw [hd, pow_add, mul_comm r, Nat.mul_div_mul_left _ _ (Nat.two_pow_pos _)]
  obtain ⟨q, k, hq, hnum⟩ := hdigits
  have htrunc : x.trunc = ofUnits x.negative (x.units.natAbs / f.one * f.one) 1 := by
    rw [trunc, isNaN_of_isFinite hx, isInfinite_of_isFinite hx, if_neg Bool.false_ne_true, if_neg Bool.false_ne_true]
  obtain ⟨hfinite, hsigned⟩ := ofUnits_digits he x.negative hnum hq hle
  rw [htrunc]
  refine ⟨hfinite, hsigned.trans ?_⟩
  rw [x.units_eq_natAbs]
  split_ifs
  · rw [Int.natAbs_neg, Int.natAbs_natCast, Int.neg_tdiv, neg_mul, ← Int.ofNat_tdiv, Nat.cast_mul]
  · rw [Int.natAbs_natCast, ← Int.ofNat_tdiv, Nat.cast_mul]

/-- **The remainder of finite values is a value**, with the sign of the dividend. -/
theorem rem_exact (he : 2 ≤ f.exponentBits) (hx : x.isFinite = true) (hy : y.isFinite = true) (hne : y.units ≠ 0) :
    (x.rem y).isFinite = true ∧ (x.rem y).units = x.units.tmod y.units := by
  obtain ⟨r, shift, hr, hxu, hfin⟩ := exists_digits he hx
  obtain ⟨t, step, ht, hyu, -⟩ := exists_digits he hy
  have htpos : 0 < t := by
    apply Nat.pos_of_ne_zero
    rintro rfl
    rw [Nat.zero_mul, Int.natAbs_eq_zero] at hyu
    exact hne hyu
  have hle : x.units.natAbs % y.units.natAbs < f.finiteUnits := (Nat.mod_le _ _).trans_lt (hxu ▸ hfin)
  have hdigits : ∃ q k, q < 2 * f.binade ∧ x.units.natAbs % y.units.natAbs = q * 2 ^ k := by
    rw [hxu, hyu]
    rcases Nat.le_total step shift with hfine | hcoarse
    · obtain ⟨d, rfl⟩ := Nat.exists_eq_add_of_le hfine
      refine ⟨r * 2 ^ d % t, step, (Nat.mod_lt _ htpos).trans ht, ?_⟩
      rw [← Nat.mul_mod_mul_right, mul_assoc, ← pow_add, Nat.add_comm d]
    · obtain ⟨d, rfl⟩ := Nat.exists_eq_add_of_le hcoarse
      refine ⟨r % (t * 2 ^ d), shift, (Nat.mod_le _ _).trans_lt hr, ?_⟩
      rw [← Nat.mul_mod_mul_right, mul_assoc, ← pow_add, Nat.add_comm d]
  obtain ⟨q, k, hq, hnum⟩ := hdigits
  have hzero : y.isZero = false := Bool.eq_false_iff.2 (mt y.isZero_iff_units.1 hne)
  have hrem : x.rem y = ofUnits x.negative (x.units.natAbs % y.units.natAbs) 1 := by
    simp only [rem, orNaN, isNaN_of_isFinite hx, isNaN_of_isFinite hy, isInfinite_of_isFinite hx,
      isInfinite_of_isFinite hy, hzero, Bool.or_false, Bool.false_eq_true, if_false]
  obtain ⟨hfinite, hsigned⟩ := ofUnits_digits he x.negative hnum hq hle
  rw [hrem]
  refine ⟨hfinite, hsigned.trans ?_⟩
  -- a remainder looks at the magnitude of the divisor only
  have hdivisor : x.units.tmod y.units = x.units.tmod y.units.natAbs := by
    rcases Int.natAbs_eq y.units with h | h
    · rw [← h]
    · rw [h, Int.tmod_neg, Int.natAbs_neg, Int.natAbs_natCast]
  rw [hdivisor, x.units_eq_natAbs]
  split_ifs
  · rw [Int.natAbs_neg, Int.natAbs_natCast, Int.neg_tmod, Int.ofNat_tmod]
  · rw [Int.natAbs_natCast, Int.ofNat_tmod]

theorem floor_eq_trunc (hpos : 0 ≤ x.units) : x.floor = x.trunc := by
  have hfloor : (x.units / f.one).natAbs = x.units.natAbs / f.one := by
    obtain ⟨m, hm⟩ := Int.eq_ofNat_of_zero_le hpos
    rw [hm, ← Int.natCast_div, Int.natAbs_natCast, Int.natAbs_natCast]
  rw [floor, trunc, hfloor]

theorem floor_exact (he : 2 ≤ f.exponentBits) (hx : x.isFinite = true) (hpos : 0 ≤ x.units) :
    x.floor.isFinite = true ∧ x.floor.units = x.units / f.one * f.one := by
  rw [floor_eq_trunc hpos, ← Int.tdiv_eq_ediv_of_nonneg hpos]
  exact trunc_exact he hx

/-- **What a value is above its floor is a value.** -/
theorem sub_floor_exact (he : 2 ≤ f.exponentBits) (hone : f.one < f.finiteUnits) (hx : x.isFinite = true)
    (hpos : 0 ≤ x.units) : (x.sub x.floor).isFinite = true ∧ (x.sub x.floor).units = x.units % f.one := by
  have hdigit : 1 < 2 * f.binade := (Nat.mul_le_mul_left 2 f.binade_pos : 2 * 1 ≤ 2 * f.binade)
  obtain ⟨honeFinite, honeUnits⟩ := ofNat_exact (n := 1) he hdigit (by rwa [Nat.one_mul])
  rw [Nat.one_mul] at honeUnits
  obtain ⟨hrem, hunits⟩ := rem_exact he hx honeFinite (honeUnits ▸ Int.natCast_ne_zero.2 (one_pos f).ne')
  rw [honeUnits, Int.tmod_eq_emod_of_nonneg hpos] at hunits
  obtain ⟨hfinite, hfloor⟩ := floor_exact he hx hpos
  have hdiff : x.units - x.floor.units = (x.rem (ofNat 1)).units := by
    rw [hunits, hfloor, Int.emod_def, mul_comm]
  rw [← hunits]
  exact sub_exact he hx hfinite hrem hdiff

end Vector128.Binary
