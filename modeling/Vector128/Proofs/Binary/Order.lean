/-
The order of values is the order of their codes, and rounding keeps to it.

Codes go up with the magnitudes they stand for (`Format.strictMono_unitsOf`). So `Binary.rank`, the signed code, goes up
with the units of a finite value, and finite values compare as their units do (`Binary.less_iff`, `Binary.equal_iff`).
Rounding crosses no magnitude: a quotient that reaches one is not rounded to anything below it (`Format.le_codeOf`).
-/
import Vector128.Proofs.Binary.Rounding
import Vector128.Proofs.Binary.Widening

namespace Vector128

namespace Format

variable {f : Format} {code num den : Nat}

theorem strictMono_unitsOf (f : Format) : StrictMono f.unitsOf := by
  apply strictMono_nat_of_lt_succ
  intro code
  obtain ⟨r, shift, h, rfl⟩ := f.exists_aligned_code code
  rw [h.unitsOf, h.unitsOf_succ]
  exact Nat.mul_lt_mul_of_pos_right (Nat.lt_succ_self r) (Nat.two_pow_pos _)

theorem exists_place (f : Format) (num : Nat) (hden : 0 < den) :
    ∃ shift, (shift = 0 ∨ f.binade * 2 ^ shift * den ≤ num) ∧ num < 2 * f.binade * 2 ^ shift * den := by
  have hhigh : num / den < 2 ^ ((num / den).log2 + 1) := Nat.lt_log2_self
  rcases Nat.le_total (num / den).log2 f.fractionBits with hle | hle
  · refine ⟨0, Or.inl rfl, ?_⟩
    have hroom : 2 ^ ((num / den).log2 + 1) ≤ 2 * f.binade * 2 ^ 0 := by
      rw [binade_eq, ← pow_succ', pow_zero, mul_one]
      exact Nat.pow_le_pow_right (by decide) (Nat.succ_le_succ hle)
    exact (Nat.div_lt_iff_lt_mul hden).1 (hhigh.trans_le hroom)
  · obtain ⟨shift, hshift⟩ := Nat.exists_eq_add_of_le hle
    have hplace : 2 ^ (num / den).log2 = f.binade * 2 ^ shift := by rw [hshift, pow_add, binade_eq]
    refine ⟨shift, ?_, ?_⟩
    · rcases Nat.eq_zero_or_pos shift with hzero | hpos
      · exact Or.inl hzero
      · have hne : num / den ≠ 0 := by
          intro hzero
          rw [hzero, Nat.log2_zero] at hshift
          omega
        right
        rw [← hplace]
        exact (Nat.le_div_iff_mul_le hden).1 (Nat.log2_self_le hne)
    · rw [pow_succ, hplace] at hhigh
      calc num < f.binade * 2 ^ shift * 2 * den := (Nat.div_lt_iff_lt_mul hden).1 hhigh
        _ = 2 * f.binade * 2 ^ shift * den := by ring

/-- **Rounding crosses no magnitude**: what reaches one is not rounded below it. -/
theorem le_codeOf (hden : 0 < den) (hfin : code ≤ f.infinityCode) (h : f.unitsOf code * den ≤ num) :
    code ≤ f.codeOf num den := by
  obtain ⟨place, hlead, hdigits⟩ := f.exists_place num hden
  obtain ⟨r, shift, ha, rfl⟩ := f.exists_aligned_code code
  rw [ha.unitsOf] at h
  have hB := f.binade_pos
  have hr := ha.digits
  have hle : shift ≤ place := by
    rcases ha.leading with rfl | hbit
    · exact Nat.zero_le _
    · have hlt : 2 ^ shift < 2 ^ (place + 1) := by
        apply lt_of_mul_lt_mul_left _ (Nat.zero_le (f.binade * den))
        calc f.binade * den * 2 ^ shift = f.binade * 2 ^ shift * den := by ring
          _ ≤ r * 2 ^ shift * den := Nat.mul_le_mul_right _ (Nat.mul_le_mul_right _ hbit)
          _ < 2 * f.binade * 2 ^ place * den := h.trans_lt hdigits
          _ = f.binade * den * 2 ^ (place + 1) := by ring
      exact Nat.le_of_lt_succ ((Nat.pow_lt_pow_iff_right (by decide)).1 hlt)
  rw [codeOf_at hden hlead hdigits]
  refine le_min ?_ hfin
  rcases Nat.eq_or_lt_of_le hle with rfl | hlt
  · -- rounded at the shift of the magnitude, which is at most the quotient there
    have hquotient : r ≤ num / (den * 2 ^ shift) := by
      rw [Nat.le_div_iff_mul_le (Nat.mul_pos hden (Nat.two_pow_pos _))]
      calc r * (den * 2 ^ shift) = r * 2 ^ shift * den := by ring
        _ ≤ num := h
    exact Nat.add_le_add_left (hquotient.trans (div_le_divRoundEven _ _)) _
  · -- rounded at a larger shift, where the leading bit alone is more than the magnitude
    have hbit : f.binade ≤ num / (den * 2 ^ place) := by
      rw [Nat.le_div_iff_mul_le (Nat.mul_pos hden (Nat.two_pow_pos _))]
      calc f.binade * (den * 2 ^ place) = f.binade * 2 ^ place * den := by ring
        _ ≤ num := hlead.resolve_left (by omega)
    calc shift * f.binade + r ≤ (shift + 1) * f.binade + f.binade := by
          rw [Nat.succ_mul]
          omega
      _ ≤ place * f.binade + f.binade := Nat.add_le_add_right (Nat.mul_le_mul_right _ hlt) _
      _ ≤ place * f.binade + divRoundEven num (den * 2 ^ place) :=
        Nat.add_le_add_left (hbit.trans (div_le_divRoundEven _ _)) _

/-- the units of a signed code -/
def signedUnits (f : Format) (rank : Int) : Int := rank.sign * f.unitsOf rank.natAbs

theorem signedUnits_natCast (f : Format) (n : Nat) : f.signedUnits n = f.unitsOf n := by
  rcases Nat.eq_zero_or_pos n with rfl | hn
  · simp [signedUnits, unitsOf_eq_zero_iff.2]
  · rw [signedUnits, Int.sign_natCast_of_ne_zero hn.ne', one_mul, Int.natAbs_natCast]

theorem signedUnits_neg (f : Format) (rank : Int) : f.signedUnits (-rank) = -f.signedUnits rank := by
  rw [signedUnits, signedUnits, Int.sign_neg, Int.natAbs_neg, neg_mul]

theorem strictMono_signedUnits (f : Format) : StrictMono f.signedUnits := by
  have hstep : ∀ n : Nat, f.signedUnits n < f.signedUnits (n + 1 : Nat) := by
    intro n
    rw [signedUnits_natCast, signedUnits_natCast]
    exact Int.ofNat_lt.2 (f.strictMono_unitsOf (Nat.lt_succ_self n))
  apply strictMono_int_of_lt_succ
  intro rank
  cases rank with
  | ofNat n => exact hstep n
  | negSucc n =>
    rw [show Int.negSucc n + 1 = -(n : Int) by omega, show Int.negSucc n = -((n + 1 : Nat) : Int) from rfl,
      signedUnits_neg, signedUnits_neg]
    exact neg_lt_neg (hstep n)

end Format

namespace Binary

variable {f : Format} {x y : Binary f}

theorem natAbs_rank (x : Binary f) : x.rank.natAbs = x.code.toNat := by
  rw [rank]
  split_ifs
  · rw [Int.natAbs_neg, Int.natAbs_natCast]
  · rw [Int.natAbs_natCast]

/-- values of one rank differ in the sign of a zero at most -/
theorem eq_of_rank_eq (hrank : x.rank = y.rank) (hsign : x.negative = y.negative) : x = y := by
  have hcode : x.code.toNat = y.code.toNat := by rw [← natAbs_rank, ← natAbs_rank, hrank]
  rw [x.eq_ofCode, y.eq_ofCode, hsign, hcode]

theorem units_eq_signedUnits (x : Binary f) : x.units = f.signedUnits x.rank := by
  rw [units, rank]
  split_ifs
  · rw [Format.signedUnits_neg, Format.signedUnits_natCast]
  · rw [Format.signedUnits_natCast]

/-- **The order by rank is the numeric order.** -/
theorem rank_lt_iff : x.rank < y.rank ↔ x.units < y.units := by
  rw [units_eq_signedUnits, units_eq_signedUnits, f.strictMono_signedUnits.lt_iff_lt]

theorem rank_eq_iff : x.rank = y.rank ↔ x.units = y.units := by
  rw [units_eq_signedUnits, units_eq_signedUnits, f.strictMono_signedUnits.injective.eq_iff]

theorem unordered_of_isFinite (hx : x.isFinite = true) (hy : y.isFinite = true) : unordered x y = false := by
  rw [unordered, isNaN_of_isFinite hx, isNaN_of_isFinite hy]
  rfl

theorem less_iff_of_not_isNaN (hx : x.isNaN = false) (hy : y.isNaN = false) : x.less y = true ↔ x.units < y.units := by
  rw [less, unordered, hx, hy, ← rank_lt_iff]
  simp

theorem less_iff (hx : x.isFinite = true) (hy : y.isFinite = true) : x.less y = true ↔ x.units < y.units :=
  less_iff_of_not_isNaN (isNaN_of_isFinite hx) (isNaN_of_isFinite hy)

theorem equal_iff (hx : x.isFinite = true) (hy : y.isFinite = true) : x.equal y = true ↔ x.units = y.units := by
  rw [equal, unordered_of_isFinite hx hy, ← rank_eq_iff]
  simp

theorem sameValue_refl (x : Binary f) : x.sameValue x = true := by
  rw [sameValue, equal, unordered, decide_eq_true rfl]
  cases x.isNaN <;> rfl

theorem isFinite_of_equal (h : x.equal y = true) (hy : y.isFinite = true) : x.isFinite = true := by
  rw [equal, Bool.and_eq_true, decide_eq_true_eq] at h
  rw [isFinite, ← natAbs_rank, h.2, natAbs_rank]
  exact hy

end Binary

end Vector128
