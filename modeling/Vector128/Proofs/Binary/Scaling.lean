/-
Rounding on coarse grids.

A magnitude of `2 * binade * 2 ^ j` units or more is a multiple of `2 ^ (j + 1)` units, and so is the next one
(`Format.Coarse.step`). So a row of binary digits that is long enough is rounded by its first digits alone:

- `Format.codeOf_mul_two_pow`: a power of two only moves the code.
- `Format.Coarse.codeOf_add`: less than `2 ^ j` units more are not seen by a magnitude.
- `Format.codeOf_eq_iff_of_coarse`: nor by a multiple of `2 ^ j` that is to be rounded, unless that is half way between
  two magnitudes and would be rounded down.
- `Binary.mul_ofNat_two_pow`, `Binary.add_ofNat_of_large`: so it is with products and sums of values.
-/
import Vector128.Proofs.Binary.Nearest

namespace Vector128

namespace Format

variable {f : Format} {code num num' den j k n : Nat}

/-- what is rounded to a code lies between the middles to its neighbours, and on neither if the code is odd -/
theorem near_of_codeOf (hf : 0 < f.fractionBits) (hden : 0 < den) (hfin : code < f.infinityCode)
    (h : f.codeOf num den = code) :
    (f.unitsOf (code - 1) + f.unitsOf code) * den ≤ 2 * num ∧
      2 * num ≤ (f.unitsOf code + f.unitsOf (code + 1)) * den ∧
      (code % 2 = 1 → (f.unitsOf (code - 1) + f.unitsOf code) * den < 2 * num ∧
        2 * num < (f.unitsOf code + f.unitsOf (code + 1)) * den) := by
  obtain ⟨below, hlow, hhigh, hcode⟩ := exists_neighbours hf hden num
  rw [Nat.add_mul, Nat.add_mul]
  rcases hcode with ⟨hcode, hmiddle, htie⟩ | ⟨hcode, hmiddle, htie⟩
  · obtain rfl : code = below := by omega
    rcases Nat.eq_zero_or_pos code with rfl | hpos
    · rw [unitsOf_eq_zero_iff.2 rfl] at hmiddle ⊢
      omega
    · have hpred : f.unitsOf (code - 1) * den < f.unitsOf code * den :=
        Nat.mul_lt_mul_of_pos_right (f.strictMono_unitsOf (Nat.sub_lt hpos Nat.one_pos)) hden
      omega
  · obtain rfl : code = below + 1 := by omega
    have hsucc : f.unitsOf (below + 1) * den < f.unitsOf (below + 1 + 1) * den :=
      Nat.mul_lt_mul_of_pos_right (f.strictMono_unitsOf (Nat.lt_succ_self _)) hden
    rw [Nat.add_sub_cancel]
    omega

/-- **A power of two moves the code by whole binades**, as far as infinity. -/
theorem codeOf_mul_two_pow (hnum : f.binade ≤ num) (k : Nat) :
    f.codeOf (num * 2 ^ k) 1 = min (f.codeOf num 1 + k * f.binade) f.infinityCode := by
  obtain ⟨shift, hlead, hdigits⟩ := f.exists_place num Nat.one_pos
  have hlead' : f.binade * 2 ^ shift ≤ num := by
    rcases hlead with rfl | hlead
    · rwa [pow_zero, Nat.mul_one]
    · rwa [Nat.mul_one] at hlead
  have hmoved : f.codeOf (num * 2 ^ k) 1 =
      min ((shift + k) * f.binade + divRoundEven (num * 2 ^ k) (1 * 2 ^ (shift + k))) f.infinityCode := by
    refine codeOf_at Nat.one_pos (Or.inr ?_) ?_
    · rw [Nat.mul_one, pow_add, ← Nat.mul_assoc]
      exact Nat.mul_le_mul_right _ hlead'
    · rw [Nat.mul_one] at hdigits ⊢
      rw [pow_add, ← Nat.mul_assoc]
      exact Nat.mul_lt_mul_of_pos_right hdigits (Nat.two_pow_pos k)
  rw [hmoved, codeOf_at Nat.one_pos hlead hdigits, pow_add, ← Nat.mul_assoc,
    divRoundEven_mul_right _ _ (Nat.two_pow_pos k), Nat.add_mul]
  omega

/-! ## Coarse grids -/

/-- a code whose magnitude is large enough for steps of more than `2 ^ j` units -/
structure Coarse (f : Format) (j code : Nat) : Prop where
  finite : code < f.infinityCode
  large : 2 * f.binade * 2 ^ j ≤ f.unitsOf code

/-- the magnitude and the next one are successive multiples of a power beyond `2 ^ j` -/
theorem Coarse.step (h : f.Coarse j code) :
    ∃ r s, j < s ∧ f.unitsOf code = r * 2 ^ s ∧ f.unitsOf (code + 1) = (r + 1) * 2 ^ s := by
  obtain ⟨r, s, ha, rfl⟩ := f.exists_aligned_code code
  refine ⟨r, s, ?_, ha.unitsOf, ha.unitsOf_succ⟩
  have hlarge := h.large
  rw [ha.unitsOf] at hlarge
  have hlt : 2 * f.binade * 2 ^ j < 2 * f.binade * 2 ^ s :=
    hlarge.trans_lt (Nat.mul_lt_mul_of_pos_right ha.digits (Nat.two_pow_pos s))
  exact (Nat.pow_lt_pow_iff_right (by decide)).1 (lt_of_mul_lt_mul_left hlt (Nat.zero_le _))

theorem coarse_codeOf (hlarge : 2 * f.binade * 2 ^ j ≤ num) (hfin : f.codeOf num 1 < f.infinityCode) :
    f.Coarse j (f.codeOf num 1) := by
  have hbound : f.Aligned f.binade (j + 1) := ⟨by have := f.binade_pos; omega, Or.inr le_rfl⟩
  have hunits : f.unitsOf ((j + 1) * f.binade + f.binade) = 2 * f.binade * 2 ^ j := by
    rw [hbound.unitsOf, pow_succ]
    ring
  have hreach : ∀ {c : Nat}, f.unitsOf c ≤ num → c ≤ f.infinityCode → c ≤ f.codeOf num 1 := fun hc hinf =>
    le_codeOf Nat.one_pos hinf (by rwa [Nat.mul_one])
  refine ⟨hfin, hunits.symm.trans_le (f.strictMono_unitsOf.monotone (hreach (hunits.trans_le hlarge) ?_))⟩
  by_contra hbeyond
  have hinf : f.unitsOf f.infinityCode ≤ num :=
    (f.strictMono_unitsOf.monotone (not_le.1 hbeyond).le).trans (hunits.trans_le hlarge)
  exact absurd (hreach hinf le_rfl) (not_le.2 hfin)

theorem Coarse.pos (h : f.Coarse j code) : 0 < code := by
  apply Nat.pos_of_ne_zero
  rintro rfl
  have hlarge := h.large
  rw [unitsOf_eq_zero_iff.2 rfl] at hlarge
  exact absurd hlarge (not_le.2 (Nat.mul_pos (Nat.mul_pos Nat.two_pos f.binade_pos) (Nat.two_pow_pos j)))

theorem codeOf_unitsOf (hfin : code < f.infinityCode) : f.codeOf (f.unitsOf code) 1 = code := by
  obtain ⟨r, s, ha, rfl⟩ := f.exists_aligned_code code
  have hcode := ha.codeOf Nat.one_pos
  rw [Nat.mul_one, Nat.min_eq_left hfin.le] at hcode
  rw [ha.unitsOf, hcode]

/-- **A few units more are not seen** by a large magnitude. -/
theorem Coarse.codeOf_add (hf : 0 < f.fractionBits) (h : f.Coarse j code) (hn : n < 2 ^ j) :
    f.codeOf (f.unitsOf code + n) 1 = code := by
  obtain ⟨r, s, hs, hunits, hsucc⟩ := h.step
  have hstep : 2 ^ (j + 1) ≤ 2 ^ s := Nat.pow_le_pow_right (by decide) hs
  have hpred : f.unitsOf (code - 1) < f.unitsOf code := f.strictMono_unitsOf (Nat.sub_lt h.pos Nat.one_pos)
  rw [Nat.succ_mul] at hsucc
  rw [pow_succ] at hstep
  refine codeOf_eq_of_near hf Nat.one_pos h.pos h.finite ?_ ?_ fun _ => ⟨?_, ?_⟩ <;> omega

/-- **What is left out is not seen, unless the rest is half way and would be rounded down.** A multiple of `2 ^ j` that is
large enough and a number less than `2 ^ j` above it are rounded alike, but for that case. -/
theorem codeOf_eq_iff_of_coarse (he : 2 ≤ f.exponentBits) (hf : 0 < f.fractionBits) (hdvd : 2 ^ j ∣ num)
    (hlarge : 2 * f.binade * 2 ^ j ≤ num) (hle : num ≤ num') (hlt : num' < num + 2 ^ j)
    (hcode : f.codeOf num 1 = code) :
    f.codeOf num' 1 = code ↔
      ¬ (code < f.infinityCode ∧ 2 * num = f.unitsOf code + f.unitsOf (code + 1) ∧ num < num') := by
  have hbound : code ≤ f.infinityCode := hcode ▸ Nat.min_le_right _ _
  rcases hbound.lt_or_eq with hfin | rfl
  · have hcoarse : f.Coarse j code := hcode ▸ coarse_codeOf hlarge (hcode.symm ▸ hfin)
    obtain ⟨hlow, hhigh, hodd⟩ := near_of_codeOf hf Nat.one_pos hfin hcode
    obtain ⟨r, s, hs, hunits, hsucc⟩ := hcoarse.step
    -- twice the number and the sum of the neighbours are multiples of the same power
    have hgrid : 2 ^ (j + 1) ∣ f.unitsOf code + f.unitsOf (code + 1) := by
      rw [hunits, hsucc, ← Nat.add_mul]
      exact Dvd.dvd.mul_left (pow_dvd_pow 2 hs) _
    have htwice : 2 ^ (j + 1) ∣ 2 * num := by
      rw [pow_succ']
      exact Nat.mul_dvd_mul_left 2 hdvd
    constructor
    · rintro heq ⟨-, hhalf, hmore⟩
      obtain ⟨-, hhigh', -⟩ := near_of_codeOf hf Nat.one_pos hfin heq
      omega
    · intro hnot
      rcases hle.eq_or_lt with rfl | hmore
      · exact hcode
      · have hbelow : 2 * num < f.unitsOf code + f.unitsOf (code + 1) := by omega
        have hroom : 2 * num + 2 ^ (j + 1) ≤ f.unitsOf code + f.unitsOf (code + 1) := by
          obtain ⟨a, ha⟩ := hgrid
          obtain ⟨b, hb⟩ := htwice
          rw [ha, hb] at hbelow ⊢
          rw [← Nat.mul_succ]
          exact Nat.mul_le_mul_left _ (Nat.lt_of_mul_lt_mul_left hbelow)
        rw [pow_succ] at hroom
        refine codeOf_eq_of_near hf Nat.one_pos hcoarse.pos hfin ?_ ?_ fun _ => ⟨?_, ?_⟩ <;> omega
  · refine iff_of_true ?_ fun hhalf => absurd hhalf.1 (lt_irrefl _)
    rw [codeOf_eq_infinityCode_iff he hf Nat.one_pos] at hcode ⊢
    omega

end Format

namespace Binary

variable {f : Format} {x y : Binary f} {n d k : Nat}

theorem ofNat_eq (n : Nat) : (ofNat n : Binary f) = ofUnits false (n * f.one) 1 := by
  rw [ofNat, ofInt, decide_natCast_neg, Int.natAbs_natCast]

theorem toNat_code_ofNat (n : Nat) : (ofNat n : Binary f).code.toNat = f.codeOf (n * f.one) 1 := by
  rw [ofNat_eq, toNat_code_ofUnits]

theorem negative_ofNat (n : Nat) : (ofNat n : Binary f).negative = false := by
  rw [ofNat_eq]
  rfl

theorem isNaN_ofNat (n : Nat) : (ofNat n : Binary f).isNaN = false := by
  rw [ofNat_eq]
  exact isNaN_ofUnits _ _ _

theorem add_of_nonneg (hx : x.isFinite = true) (hy : y.isFinite = true) (hxs : x.negative = false)
    (hys : y.negative = false) : x.add y = ofUnits false (x.units.natAbs + y.units.natAbs) 1 := by
  have hxu : x.units = x.units.natAbs := by rw [natAbs_units, units, hxs, if_neg Bool.false_ne_true]
  have hyu : y.units = y.units.natAbs := by rw [natAbs_units, units, hys, if_neg Bool.false_ne_true]
  have hsign : (if x.units + y.units = 0 then x.negative && y.negative else decide (x.units + y.units < 0)) = false := by
    split_ifs
    · rw [hxs, Bool.false_and]
    · rw [hxu, hyu, ← Nat.cast_add, decide_natCast_neg]
  have hsum : (x.units + y.units).natAbs = x.units.natAbs + y.units.natAbs := by omega
  simp only [add, orNaN, addNumbers, isNaN_of_isFinite hx, isNaN_of_isFinite hy, isInfinite_of_isFinite hx,
    isInfinite_of_isFinite hy, Bool.false_eq_true, if_false, hsum, hsign]

theorem ofNat_finite_or_infinite (n : Nat) :
    (ofNat n : Binary f).isFinite = true ∨ (ofNat n : Binary f) = infinity false := by
  cases hi : (ofNat n : Binary f).isInfinite with
  | false => exact Or.inl (isFinite_of_not _ (isNaN_ofNat n) hi)
  | true =>
    right
    rw [eq_infinity hi, negative_ofNat]

theorem coarse_ofNat (hn : 2 * f.binade * 2 ^ k ≤ n) (hfin : (ofNat n : Binary f).isFinite = true) :
    f.Coarse (k + f.scale) (f.codeOf (n * f.one) 1) := by
  apply Format.coarse_codeOf
  · rw [pow_add, ← Nat.mul_assoc]
    exact Nat.mul_le_mul_right _ hn
  · rw [← toNat_code_ofNat]
    exact of_decide_eq_true hfin

/-- **A product with a power of two is rounded as its first factor is.** -/
theorem mul_ofNat_two_pow (he : 2 ≤ f.exponentBits) (hn : 2 * f.binade ≤ n) (hpow : 2 ^ k < 2 * f.binade)
    (hone : 2 ^ k * f.one < f.finiteUnits) : (ofNat n).mul (ofNat (2 ^ k)) = (ofNat (n * 2 ^ k) : Binary f) := by
  obtain ⟨hyf, hyu⟩ := ofNat_exact he hpow hone
  have hB := f.binade_pos
  have hlarge : f.binade ≤ n * f.one := by
    calc f.binade ≤ n := by omega
      _ ≤ n * f.one := Nat.le_mul_of_pos_right n (one_pos f)
  have hcode : f.codeOf (n * 2 ^ k * f.one) 1 = min (f.codeOf (n * f.one) 1 + k * f.binade) f.infinityCode := by
    rw [mul_right_comm, Format.codeOf_mul_two_pow hlarge]
  rcases ofNat_finite_or_infinite (f := f) n with hxf | hinf
  · have hcoarse : f.Coarse (0 + f.scale) (f.codeOf (n * f.one) 1) := coarse_ofNat (by rwa [pow_zero, Nat.mul_one]) hxf
    have hunits : f.binade ≤ f.unitsOf (f.codeOf (n * f.one) 1) := by
      refine le_trans ?_ hcoarse.large
      calc f.binade ≤ 2 * f.binade := by omega
        _ ≤ 2 * f.binade * 2 ^ (0 + f.scale) := Nat.le_mul_of_pos_right _ (Nat.two_pow_pos _)
    have hmul : f.codeOf (f.unitsOf (f.codeOf (n * f.one) 1) * (2 ^ k * f.one)) f.one =
        f.codeOf (n * 2 ^ k * f.one) 1 := by
      have hquotient := f.codeOf_mul_right (f.unitsOf (f.codeOf (n * f.one) 1) * 2 ^ k) 1 (one_pos f)
      rw [Nat.one_mul] at hquotient
      rw [hcode, ← Nat.mul_assoc, hquotient, Format.codeOf_mul_two_pow hunits, Format.codeOf_unitsOf hcoarse.finite]
    rw [mul_of_isFinite hxf hyf, hyu, Int.natAbs_natCast, natAbs_units, toNat_code_ofNat, negative_ofNat, negative_ofNat,
      ofNat_eq (n * 2 ^ k), ofUnits, hmul]
    rfl
  · have hinfcode : f.codeOf (n * f.one) 1 = f.infinityCode := by
      rw [← toNat_code_ofNat, hinf, toNat_code_infinity]
    have hyzero : (ofNat (2 ^ k) : Binary f).isZero = false := by
      rw [Bool.eq_false_iff, ne_eq, isZero_iff_units, hyu, Nat.cast_eq_zero]
      exact (Nat.mul_pos (Nat.two_pow_pos k) (one_pos f)).ne'
    have hmul : (infinity false : Binary f).mul (ofNat (2 ^ k)) = infinity false := by
      simp only [mul, orNaN, isNaN_infinity, isNaN_ofNat, isInfinite_infinity, isZero_infinity he, hyzero,
        negative_ofNat, Bool.true_or, Bool.or_self, Bool.false_eq_true, if_true, if_false]
      rfl
    rw [hinf, hmul, ofNat_eq, ofUnits, hcode, hinfcode, Nat.min_eq_right (Nat.le_add_right _ _)]
    rfl

/-- **A small summand is not seen** by a large integer. -/
theorem add_ofNat_of_large (hf : 0 < f.fractionBits) (hn : 2 * f.binade * 2 ^ k ≤ n) (hd : d < 2 ^ k)
    (hdf : (ofNat d : Binary f).isFinite = true) (hdu : (ofNat d : Binary f).units = (d * f.one : Nat)) :
    (ofNat n).add (ofNat d) = (ofNat n : Binary f) := by
  rcases ofNat_finite_or_infinite (f := f) n with hxf | hinf
  · have hsmall : d * f.one < 2 ^ (k + f.scale) := by
      rw [pow_add]
      exact Nat.mul_lt_mul_of_pos_right hd (one_pos f)
    rw [add_of_nonneg hxf hdf (negative_ofNat n) (negative_ofNat d), hdu, Int.natAbs_natCast, natAbs_units,
      toNat_code_ofNat, ofUnits, (coarse_ofNat hn hxf).codeOf_add hf hsmall, ofNat_eq]
    rfl
  · rw [hinf]
    simp only [add, orNaN, addNumbers, isNaN_infinity, isNaN_ofNat, isInfinite_infinity, isInfinite_of_isFinite hdf,
      Bool.false_and, Bool.false_eq_true, if_true, if_false]

end Binary

end Vector128
