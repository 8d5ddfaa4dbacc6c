/-
What a quotient of units is rounded to.

A magnitude is the result for every quotient that is no farther from it than half way to a neighbour, and no half belongs
to an odd code (`Format.codeOf_eq_of_near`). Just above a power of two the neighbour below is nearer than the one above;
there the quotient may be counted in the smaller steps, and is then rounded up to the power. At the ends, what is less
than half a unit is zero (`Format.codeOf_eq_zero`), and what is beyond the finite magnitudes is infinite
(`Format.codeOf_eq_infinityCode`).
-/
import Vector128.Proofs.Binary.Exact

namespace Vector128

variable {n d q : Nat}

theorem divRoundEven_eq (hd : 0 < d) (hlow : 2 * (q * d) ≤ 2 * n + d) (hhigh : 2 * n ≤ 2 * (q * d) + d)
    (hodd : q % 2 = 1 → 2 * (q * d) < 2 * n + d ∧ 2 * n < 2 * (q * d) + d) : divRoundEven n d = q := by
  have hsplit : n / d * d + n % d = n := by rw [Nat.mul_comm, Nat.div_add_mod]
  have hmod := Nat.mod_lt n hd
  have hle : n / d ≤ q := by
    by_contra hgt
    have := Nat.mul_le_mul_right d (Nat.succ_le_of_lt (not_le.1 hgt))
    rw [Nat.succ_mul] at this
    omega
  have hge : q ≤ n / d + 1 := by
    by_contra hlt
    have := Nat.mul_le_mul_right d (Nat.succ_le_of_lt (not_le.1 hlt))
    rw [Nat.succ_mul, Nat.succ_mul] at this
    omega
  rcases Nat.lt_or_ge (n / d) q with hlt | hge'
  · obtain rfl : q = n / d + 1 := by omega
    rw [Nat.succ_mul (n / d) d] at hlow hhigh hodd
    simp only [divRoundEven]
    split_ifs <;> omega
  · obtain rfl : q = n / d := by omega
    simp only [divRoundEven]
    split_ifs <;> omega

theorem div_le_divRoundEven (n d : Nat) : n / d ≤ divRoundEven n d := by
  simp only [divRoundEven]
  split_ifs <;> omega

theorem divRoundEven_le (h : n ≤ q * d) : divRoundEven n d ≤ q := by
  rcases Nat.eq_zero_or_pos d with rfl | hd
  · obtain rfl : n = 0 := by omega
    exact Nat.zero_le q
  · have hle : n / d ≤ q := Nat.div_le_of_le_mul (by rwa [Nat.mul_comm])
    have hsplit : n / d * d + n % d = n := by rw [Nat.mul_comm, Nat.div_add_mod]
    rcases hle.lt_or_eq with hlt | heq
    · simp only [divRoundEven]
      split_ifs <;> omega
    · rw [heq] at hsplit
      simp only [divRoundEven]
      split_ifs <;> omega

theorem divRoundEven_mul_right (n d : Nat) {c : Nat} (hc : 0 < c) : divRoundEven (n * c) (d * c) = divRoundEven n d := by
  have hlow : 2 * (n % d * c) < d * c ↔ 2 * (n % d) < d := by
    rw [← mul_assoc, Nat.mul_lt_mul_right hc]
  have hhigh : d * c < 2 * (n % d * c) ↔ d < 2 * (n % d) := by
    rw [← mul_assoc, Nat.mul_lt_mul_right hc]
  simp only [divRoundEven, Nat.mul_div_mul_right _ _ hc, Nat.mul_mod_mul_right, hlow, hhigh]

namespace Format

variable {f : Format} {code num den r shift : Nat}

theorem binade_mod_two (hf : 0 < f.fractionBits) : f.binade % 2 = 0 := by
  obtain ⟨k, hk⟩ := Nat.exists_eq_add_one_of_ne_zero hf.ne'
  rw [binade_eq, hk, Nat.pow_succ, Nat.mul_mod_left]

/-- a quotient whose leading bit is at a place counted by the shift is rounded at that shift -/
theorem codeOf_at (hden : 0 < den) (hlead : shift = 0 ∨ f.binade * 2 ^ shift * den ≤ num)
    (hdigits : num < 2 * f.binade * 2 ^ shift * den) :
    f.codeOf num den = min (shift * f.binade + divRoundEven num (den * 2 ^ shift)) f.infinityCode := by
  have hshift : (num / den).log2 - f.fractionBits = shift :=
    log2_sub_eq (hlead.imp_right (Nat.le_div_iff_mul_le hden).2) ((Nat.div_lt_iff_lt_mul hden).2 hdigits)
  simp only [codeOf, hshift]
  rfl

/-- a quotient is rounded for what it is, in lowest terms or not -/
theorem codeOf_mul_right (f : Format) (num den : Nat) {c : Nat} (hc : 0 < c) :
    f.codeOf (num * c) (den * c) = f.codeOf num den := by
  simp only [codeOf, Nat.mul_div_mul_right _ _ hc, mul_right_comm den c, divRoundEven_mul_right _ _ hc]

/-- the step below a magnitude, where its leading bit stays set -/
theorem Aligned.unitsOf_pred (h : f.Aligned r shift) (hlead : f.binade < r) :
    f.unitsOf (shift * f.binade + r - 1) + 2 ^ shift = r * 2 ^ shift := by
  obtain ⟨t, rfl⟩ := Nat.exists_eq_add_one_of_ne_zero (Nat.ne_zero_of_lt hlead)
  have hpred : f.Aligned t shift := ⟨(Nat.lt_succ_self t).trans h.digits, Or.inr (Nat.le_of_lt_succ hlead)⟩
  rw [← add_assoc, Nat.add_sub_cancel, hpred.unitsOf, Nat.succ_mul]

/-- the step below a power of two is half as long as the one above -/
theorem unitsOf_pred_binade (f : Format) (k : Nat) :
    f.unitsOf ((k + 1) * f.binade + f.binade - 1) + 2 ^ k = 2 * f.binade * 2 ^ k := by
  have hB := f.binade_pos
  have hpred : f.Aligned (2 * f.binade - 1) k := ⟨by omega, Or.inr (by omega)⟩
  have hcode : (k + 1) * f.binade + f.binade - 1 = k * f.binade + (2 * f.binade - 1) := by
    rw [Nat.succ_mul]
    omega
  rw [hcode, hpred.unitsOf, ← Nat.succ_mul, Nat.succ_eq_add_one, Nat.sub_add_cancel (by omega)]

/-- the step below a magnitude is no longer than the one above -/
theorem Aligned.unitsOf_le_pred_add (h : f.Aligned r shift) (hpos : 0 < shift * f.binade + r) :
    r * 2 ^ shift ≤ f.unitsOf (shift * f.binade + r - 1) + 2 ^ shift := by
  obtain ⟨r', shift', h', hpred⟩ := f.exists_aligned_code (shift * f.binade + r - 1)
  have hnext : shift' * f.binade + r' + 1 = shift * f.binade + r := by omega
  have hunits : (r' + 1) * 2 ^ shift' = r * 2 ^ shift := by rw [← h'.unitsOf_succ, hnext, h.unitsOf]
  have hshift : shift' ≤ shift := by
    by_contra hgt
    have hlead : f.binade ≤ r' := h'.leading.resolve_left (by omega)
    have hdigits := h.digits
    have := Nat.mul_le_mul_right f.binade (Nat.succ_le_of_lt (not_le.1 hgt))
    rw [Nat.succ_mul] at this
    omega
  rw [hpred, h'.unitsOf, ← hunits, Nat.succ_mul]
  exact Nat.add_le_add_left (Nat.pow_le_pow_right (by decide) hshift) _

/-! ## Rounding -/

/-- **The nearest magnitude is the result**, and of two the one with the even code. -/
theorem codeOf_eq_of_near (hf : 0 < f.fractionBits) (hden : 0 < den) (hpos : 0 < code) (hfin : code < f.infinityCode)
    (hlow : (f.unitsOf (code - 1) + f.unitsOf code) * den ≤ 2 * num)
    (hhigh : 2 * num ≤ (f.unitsOf code + f.unitsOf (code + 1)) * den)
    (hodd : code % 2 = 1 → (f.unitsOf (code - 1) + f.unitsOf code) * den < 2 * num ∧
      2 * num < (f.unitsOf code + f.unitsOf (code + 1)) * den) : f.codeOf num den = code := by
  obtain ⟨r, shift, h, rfl⟩ := f.exists_aligned_code code
  have hstep : 0 < den * 2 ^ shift := Nat.mul_pos hden (Nat.two_pow_pos _)
  have hparity : (shift * f.binade + r) % 2 = r % 2 := by
    rw [Nat.add_mod, Nat.mul_mod, binade_mod_two hf]
    simp
  have hmiddle : f.unitsOf (shift * f.binade + r) * den = r * (den * 2 ^ shift) := by
    rw [h.unitsOf]
    ring
  have habove : f.unitsOf (shift * f.binade + r + 1) * den = r * (den * 2 ^ shift) + den * 2 ^ shift := by
    rw [h.unitsOf_succ]
    ring
  rw [hparity] at hodd
  rw [Nat.add_mul, hmiddle] at hlow hodd
  rw [Nat.add_mul, hmiddle, habove] at hhigh hodd
  by_cases hplace : shift = 0 ∨ f.binade * 2 ^ shift * den ≤ num
  · -- the leading bit of the quotient is where the magnitude has it
    have hdigits : num < 2 * f.binade * 2 ^ shift * den := by
      have hroom := Nat.mul_le_mul_right (den * 2 ^ shift) (Nat.succ_le_of_lt h.digits)
      rw [Nat.succ_mul] at hroom
      calc num < 2 * f.binade * (den * 2 ^ shift) := by omega
        _ = 2 * f.binade * 2 ^ shift * den := by ring
    have hpred : r * (den * 2 ^ shift) ≤ f.unitsOf (shift * f.binade + r - 1) * den + den * 2 ^ shift := by
      calc r * (den * 2 ^ shift) = r * 2 ^ shift * den := by ring
        _ ≤ (f.unitsOf (shift * f.binade + r - 1) + 2 ^ shift) * den :=
          Nat.mul_le_mul_right den (h.unitsOf_le_pred_add hpos)
        _ = f.unitsOf (shift * f.binade + r - 1) * den + den * 2 ^ shift := by ring
    have hround : divRoundEven num (den * 2 ^ shift) = r := divRoundEven_eq hstep (by omega) (by omega) (by omega)
    rw [codeOf_at hden hplace hdigits, hround, Nat.min_eq_left hfin.le]
  · -- the quotient is below a power of two, and close enough to be rounded up to it
    rw [not_or, not_le] at hplace
    obtain ⟨hshift, hbelow⟩ := hplace
    obtain ⟨k, rfl⟩ := Nat.exists_eq_add_one_of_ne_zero hshift
    have hbelow' : num < f.binade * (den * 2 ^ (k + 1)) := by
      calc num < f.binade * 2 ^ (k + 1) * den := hbelow
        _ = f.binade * (den * 2 ^ (k + 1)) := by ring
    obtain rfl : r = f.binade := by
      apply Nat.le_antisymm _ (h.leading.resolve_left hshift)
      by_contra hgt
      have hpred : f.unitsOf ((k + 1) * f.binade + r - 1) * den + den * 2 ^ (k + 1) = r * (den * 2 ^ (k + 1)) := by
        calc f.unitsOf ((k + 1) * f.binade + r - 1) * den + den * 2 ^ (k + 1)
            = (f.unitsOf ((k + 1) * f.binade + r - 1) + 2 ^ (k + 1)) * den := by ring
          _ = r * (den * 2 ^ (k + 1)) := by
            rw [h.unitsOf_pred (not_le.1 hgt)]
            ring
      have hstep' := Nat.mul_le_mul_right (den * 2 ^ (k + 1)) (Nat.succ_le_of_lt (not_le.1 hgt))
      rw [Nat.succ_mul f.binade] at hstep'
      omega
    have hpred : f.unitsOf ((k + 1) * f.binade + f.binade - 1) * den + den * 2 ^ k = 2 * f.binade * (den * 2 ^ k) := by
      calc f.unitsOf ((k + 1) * f.binade + f.binade - 1) * den + den * 2 ^ k
          = (f.unitsOf ((k + 1) * f.binade + f.binade - 1) + 2 ^ k) * den := by ring
        _ = 2 * f.binade * (den * 2 ^ k) := by
          rw [f.unitsOf_pred_binade]
          ring
    have hsame : f.binade * (den * 2 ^ (k + 1)) = 2 * f.binade * (den * 2 ^ k) := by ring
    have hstep' : 0 < den * 2 ^ k := Nat.mul_pos hden (Nat.two_pow_pos _)
    have hround : divRoundEven num (den * 2 ^ k) = 2 * f.binade :=
      divRoundEven_eq hstep' (by omega) (by omega) fun hodd => absurd hodd (by omega)
    have hlead : f.binade * 2 ^ k * den ≤ num := by
      have hone := Nat.mul_le_mul_right (den * 2 ^ k) (Nat.succ_le_of_lt f.binade_pos)
      have hdouble : 2 * (f.binade * 2 ^ k * den) = 2 * f.binade * (den * 2 ^ k) := by ring
      omega
    have hdigits : num < 2 * f.binade * 2 ^ k * den := by
      calc num < f.binade * 2 ^ (k + 1) * den := hbelow
        _ = 2 * f.binade * 2 ^ k * den := by ring
    have hcode : k * f.binade + 2 * f.binade = (k + 1) * f.binade + f.binade := by ring
    rw [codeOf_at hden (Or.inr hlead) hdigits, hround, hcode, Nat.min_eq_left hfin.le]

theorem codeOf_eq_zero (f : Format) (h : 2 * num < den) : f.codeOf num den = 0 := by
  have hround : divRoundEven num (den * 2 ^ 0) = 0 :=
    divRoundEven_eq (by omega) (by omega) (by omega) fun hodd => absurd hodd (by decide)
  have hB := f.binade_pos
  have hdigits : num < 2 * f.binade * 2 ^ 0 * den :=
    (show num < den by omega).trans_le (Nat.le_mul_of_pos_left den (by omega))
  rw [codeOf_at (by omega) (Or.inl rfl) hdigits, hround]
  simp

theorem codeOf_eq_infinityCode (f : Format) (hden : 0 < den) (h : f.finiteUnits * den ≤ num) :
    f.codeOf num den = f.infinityCode := by
  have hquotient : f.finiteUnits ≤ num / den := (Nat.le_div_iff_mul_le hden).2 h
  have hne : num / den ≠ 0 := (Nat.lt_of_lt_of_le (Nat.two_pow_pos _) hquotient).ne'
  have hlog : f.fractionBits + (2 ^ f.exponentBits - 2) ≤ (num / den).log2 := (Nat.le_log2 hne).2 hquotient
  obtain ⟨shift, hshift⟩ := Nat.exists_eq_add_of_le ((Nat.le_add_right _ _).trans hlog)
  have hround : f.binade ≤ divRoundEven num (den * 2 ^ shift) := by
    refine le_trans ?_ (div_le_divRoundEven _ _)
    rw [← Nat.div_div_eq_div_mul, Nat.le_div_iff_mul_le (Nat.two_pow_pos _), binade_eq, ← pow_add, ← hshift]
    exact Nat.log2_self_le hne
  have hcode : f.codeOf num den = min (shift * f.binade + divRoundEven num (den * 2 ^ shift)) f.infinityCode := by
    simp only [codeOf, hshift, Nat.add_sub_cancel_left]
    rfl
  rw [hcode, Nat.min_eq_right]
  calc f.infinityCode ≤ (shift + 1) * f.binade :=
        Nat.mul_le_mul_right _ (show 2 ^ f.exponentBits - 1 ≤ shift + 1 by omega)
    _ ≤ shift * f.binade + divRoundEven num (den * 2 ^ shift) := by
      rw [Nat.succ_mul]
      exact Nat.add_le_add_left hround _

end Format

end Vector128
