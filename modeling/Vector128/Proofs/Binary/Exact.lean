/-
Rounding is exact where it can be.

A magnitude of a format is a number `r` below `2 ^ (fractionBits + 1)`, shifted to the left, and the shift is
zero or the leading bit of `r` is set (`Format.Aligned`). Its code is the shift and the number put together,
so rounding such a magnitude gives it back.

- `Format.unitsOf_codeOf`: what `codeOf` makes of a number with few enough digits denotes that number.
- `Binary.ofUnits_exact`: the same of a rounded result, with its sign.
- `Binary.ofInt_exact`: an integer with few enough digits before its last zeros is itself.
- `Binary.mul_ofNat_exact`: so is a product with a power of two.
-/
import Mathlib.Tactic
import Vector128.Number.Coerce

namespace Vector128

theorem divRoundEven_mul (q : Nat) {d : Nat} (hd : 0 < d) : divRoundEven (q * d) d = q := by
  simp only [divRoundEven, Nat.mul_mod_left, Nat.mul_div_cancel q hd]
  rw [if_pos (by omega)]

namespace Format

variable {f : Format} {r shift : Nat}

theorem binade_eq (f : Format) : f.binade = 2 ^ f.fractionBits := rfl

theorem one_eq (f : Format) : f.one = 2 ^ f.scale := rfl

theorem binade_pos (f : Format) : 0 < f.binade := Nat.two_pow_pos _

/-- a number and a shift that are the digits and the exponent of a magnitude -/
structure Aligned (f : Format) (r shift : Nat) : Prop where
  digits : r < 2 * f.binade
  leading : shift = 0 ∨ f.binade ≤ r

/-- A number with few enough digits is a magnitude wherever it is shifted to. It is doubled until its leading
bit is set, as long as there are shifts left to take from. -/
theorem exists_aligned {q : Nat} (hq : q < 2 * f.binade) (k : Nat) :
    ∃ r shift, f.Aligned r shift ∧ q * 2 ^ k = r * 2 ^ shift := by
  induction k generalizing q with
  | zero => exact ⟨q, 0, ⟨hq, Or.inl rfl⟩, rfl⟩
  | succ k ih =>
    by_cases hlead : f.binade ≤ q
    · exact ⟨q, k + 1, ⟨hq, Or.inr hlead⟩, rfl⟩
    · obtain ⟨r, shift, hr, he⟩ := ih (q := 2 * q) (by omega)
      exact ⟨r, shift, hr, by rw [← he, pow_succ]; ring⟩

theorem log2_sub_eq {n : Nat} (hlead : shift = 0 ∨ f.binade * 2 ^ shift ≤ n) (hdigits : n < 2 * f.binade * 2 ^ shift) :
    n.log2 - f.fractionBits = shift := by
  rw [binade_eq, ← pow_succ', ← pow_add] at hdigits
  by_cases hn : n = 0
  · subst hn
    rcases hlead with rfl | hlead
    · simp
    · exact absurd hlead (not_le.2 (Nat.mul_pos f.binade_pos (Nat.two_pow_pos _)))
  · have hhigh := (Nat.log2_lt hn).2 hdigits
    rcases hlead with rfl | hlead
    · omega
    · rw [binade_eq, ← pow_add, ← Nat.le_log2 hn] at hlead
      omega

theorem Aligned.log2_sub (h : f.Aligned r shift) : (r * 2 ^ shift).log2 - f.fractionBits = shift :=
  log2_sub_eq (h.leading.imp_right (Nat.mul_le_mul_right _)) (Nat.mul_lt_mul_of_pos_right h.digits (Nat.two_pow_pos _))

theorem Aligned.codeOf (h : f.Aligned r shift) {den : Nat} (hden : 0 < den) :
    f.codeOf (r * 2 ^ shift * den) den = min (shift * f.binade + r) f.infinityCode := by
  have hshift := h.log2_sub
  have hnum : r * 2 ^ shift * den = r * (den * twoPow shift) := by
    rw [twoPow, Nat.pow_eq]
    ring
  have hpos : 0 < den * twoPow shift := Nat.mul_pos hden (Nat.two_pow_pos _)
  simp only [Format.codeOf, Nat.mul_div_cancel _ hden, hshift]
  rw [hnum, divRoundEven_mul r hpos]

theorem Aligned.unitsOf (h : f.Aligned r shift) : f.unitsOf (shift * f.binade + r) = r * 2 ^ shift := by
  have hB := f.binade_pos
  have hd := h.digits
  by_cases hlead : f.binade ≤ r
  · have hdiv : (shift * f.binade + r) / f.binade = shift + 1 := by
      rw [Nat.div_eq_iff hB]
      constructor
      · rw [Nat.succ_mul]
        omega
      · rw [Nat.succ_mul]
        omega
    have hmod : (shift * f.binade + r) % f.binade = r - f.binade := by
      rw [Nat.mul_add_mod_self_right, Nat.mod_eq_sub_mod hlead, Nat.mod_eq_of_lt (by omega)]
    rw [Format.unitsOf, hdiv, hmod, if_neg (Nat.succ_ne_zero shift), Nat.add_sub_cancel' hlead, Nat.add_sub_cancel]
    rfl
  · obtain rfl : shift = 0 := h.leading.resolve_right hlead
    rw [Nat.zero_mul, Nat.zero_add, Format.unitsOf, Nat.div_eq_of_lt (not_le.1 hlead), if_pos rfl,
      Nat.mod_eq_of_lt (not_le.1 hlead), pow_zero, mul_one]

/-- every code is made of a number and a shift -/
theorem exists_aligned_code (f : Format) (code : Nat) : ∃ r shift, f.Aligned r shift ∧ code = shift * f.binade + r := by
  have hB := f.binade_pos
  have hdiv := Nat.div_add_mod code f.binade
  have hmod := Nat.mod_lt code hB
  rcases Nat.eq_zero_or_pos (code / f.binade) with hzero | hpos
  · refine ⟨code, 0, ⟨?_, Or.inl rfl⟩, by omega⟩
    rw [hzero] at hdiv
    omega
  · refine ⟨f.binade + code % f.binade, code / f.binade - 1, ⟨by omega, Or.inr (Nat.le_add_right _ _)⟩, ?_⟩
    obtain ⟨e, he⟩ : ∃ e, code / f.binade = e + 1 := ⟨code / f.binade - 1, by omega⟩
    calc code = f.binade * (e + 1) + code % f.binade := by rw [← he, hdiv]
      _ = (code / f.binade - 1) * f.binade + (f.binade + code % f.binade) := by
        rw [he, Nat.add_sub_cancel]
        ring

theorem Aligned.digits_pos (h : f.Aligned r shift) (hpos : 0 < shift * f.binade + r) : 0 < r := by
  apply Nat.pos_of_ne_zero
  rintro rfl
  rcases h.leading with rfl | hlead
  · simp at hpos
  · exact absurd hlead (not_le.2 f.binade_pos)

theorem unitsOf_eq_zero_iff {code : Nat} : f.unitsOf code = 0 ↔ code = 0 := by
  obtain ⟨r, shift, h, rfl⟩ := f.exists_aligned_code code
  constructor
  · intro hzero
    by_contra hne
    rw [h.unitsOf] at hzero
    exact absurd hzero (Nat.mul_pos (h.digits_pos (Nat.pos_of_ne_zero hne)) (Nat.two_pow_pos _)).ne'
  · intro hzero
    rw [hzero, Format.unitsOf]
    simp

/-- the next magnitude is one more at the same shift, also where the shift changes -/
theorem Aligned.unitsOf_succ (h : f.Aligned r shift) : f.unitsOf (shift * f.binade + r + 1) = (r + 1) * 2 ^ shift := by
  have hd := h.digits
  by_cases hlast : r + 1 = 2 * f.binade
  · have hnext : f.Aligned f.binade (shift + 1) := ⟨by have := f.binade_pos; omega, Or.inr le_rfl⟩
    have hcode : shift * f.binade + r + 1 = (shift + 1) * f.binade + f.binade := by
      rw [add_assoc, hlast]
      ring
    rw [hcode, hnext.unitsOf, hlast]
    ring
  · have hnext : f.Aligned (r + 1) shift := ⟨by omega, h.leading.imp_right Nat.le_succ_of_le⟩
    rw [add_assoc, hnext.unitsOf]

theorem unitsOf_le_succ (f : Format) (code : Nat) : f.unitsOf code ≤ f.unitsOf (code + 1) := by
  obtain ⟨r, shift, h, rfl⟩ := f.exists_aligned_code code
  rw [h.unitsOf, h.unitsOf_succ]
  exact Nat.mul_le_mul_right _ (Nat.le_succ r)

/-- magnitudes below this many units are finite -/
def finiteUnits (f : Format) : Nat := 2 ^ (f.fractionBits + (2 ^ f.exponentBits - 2))

theorem mul_one_lt {n b : Nat} (hn : n < 2 ^ b) (hb : b + f.scale ≤ f.fractionBits + (2 ^ f.exponentBits - 2)) :
    n * f.one < f.finiteUnits := by
  calc n * f.one < 2 ^ b * 2 ^ f.scale := Nat.mul_lt_mul_of_pos_right hn (Nat.two_pow_pos _)
    _ ≤ f.finiteUnits := by
      rw [← pow_add]
      exact Nat.pow_le_pow_right (by decide) hb

theorem Aligned.lt_infinityCode (h : f.Aligned r shift) (he : 2 ≤ f.exponentBits)
    (hfin : r * 2 ^ shift < f.finiteUnits) : shift * f.binade + r < f.infinityCode := by
  have hd := h.digits
  have h4 : 2 ^ 2 ≤ 2 ^ f.exponentBits := Nat.pow_le_pow_right (by decide) he
  have hshift : shift + 2 ≤ 2 ^ f.exponentBits - 1 := by
    rcases h.leading with rfl | hlead
    · omega
    · have hlt : 2 ^ (f.fractionBits + shift) < 2 ^ (f.fractionBits + (2 ^ f.exponentBits - 2)) := by
        rw [pow_add]
        exact lt_of_le_of_lt (Nat.mul_le_mul_right _ hlead) hfin
      have := (Nat.pow_lt_pow_iff_right (by decide)).1 hlt
      omega
  calc shift * f.binade + r < (shift + 2) * f.binade := by rw [Nat.add_mul]; omega
    _ ≤ (2 ^ f.exponentBits - 1) * f.binade := Nat.mul_le_mul_right _ hshift

/-- **A number with few enough digits is rounded to itself.** -/
theorem unitsOf_codeOf (he : 2 ≤ f.exponentBits) {q k den : Nat} (hq : q < 2 * f.binade)
    (hfin : q * 2 ^ k < f.finiteUnits) (hden : 0 < den) : f.codeOf (q * 2 ^ k * den) den < f.infinityCode ∧
      f.unitsOf (f.codeOf (q * 2 ^ k * den) den) = q * 2 ^ k := by
  obtain ⟨r, shift, h, hm⟩ := exists_aligned hq k
  rw [hm] at hfin ⊢
  have hlt := h.lt_infinityCode he hfin
  rw [h.codeOf hden, Nat.min_eq_left hlt.le]
  exact ⟨hlt, h.unitsOf⟩

theorem infinityCode_lt (f : Format) : f.infinityCode < 2 ^ f.codeBits := by
  rw [codeBits, pow_add]
  exact Nat.mul_lt_mul_of_pos_right (Nat.sub_lt (Nat.two_pow_pos _) Nat.one_pos) f.binade_pos

theorem infinityCode_pos (f : Format) (he : 2 ≤ f.exponentBits) : 0 < f.infinityCode := by
  have h4 : 2 ^ 2 ≤ 2 ^ f.exponentBits := Nat.pow_le_pow_right (by decide) he
  exact Nat.mul_pos (show 0 < 2 ^ f.exponentBits - 1 by omega) f.binade_pos

end Format

/-! ## Values -/

namespace Binary

variable {f : Format}

theorem toNat_code_ofCode (negative : Bool) {code : Nat} (h : code ≤ f.infinityCode) :
    (ofCode negative code : Binary f).code.toNat = code := by
  rw [ofCode, BitVec.toNat_ofNat, Nat.mod_eq_of_lt (h.trans_lt f.infinityCode_lt)]

theorem toNat_code_ofUnits (negative : Bool) (num den : Nat) :
    (ofUnits negative num den : Binary f).code.toNat = f.codeOf num den :=
  toNat_code_ofCode negative (Nat.min_le_right _ _)

/-- a result with few enough digits is finite, and it is that result -/
theorem ofUnits_exact (he : 2 ≤ f.exponentBits) (negative : Bool) {q k den : Nat} (hq : q < 2 * f.binade)
    (hfin : q * 2 ^ k < f.finiteUnits) (hden : 0 < den) :
    (ofUnits negative (q * 2 ^ k * den) den : Binary f).isFinite = true ∧
      (ofUnits negative (q * 2 ^ k * den) den : Binary f).units =
        if negative then -((q * 2 ^ k : Nat) : Int) else (q * 2 ^ k : Nat) := by
  obtain ⟨hlt, hunits⟩ := Format.unitsOf_codeOf he hq hfin hden
  constructor
  · rw [isFinite, toNat_code_ofUnits]
    exact decide_eq_true hlt
  · rw [units, toNat_code_ofUnits, hunits]
    rfl

theorem isNaN_of_isFinite {x : Binary f} (h : x.isFinite = true) : x.isNaN = false := by
  have := of_decide_eq_true h
  exact decide_eq_false (by omega)

theorem isInfinite_of_isFinite {x : Binary f} (h : x.isFinite = true) : x.isInfinite = false := by
  have := of_decide_eq_true h
  exact decide_eq_false (by omega)

theorem decide_natCast_neg (n : Nat) : decide ((n : Int) < 0) = false :=
  decide_eq_false (not_lt.2 (Int.natCast_nonneg n))

theorem one_pos (f : Format) : 0 < f.one := Nat.two_pow_pos _

theorem ofInt_zero (f : Format) : (ofInt 0 : Binary f) = zero := by
  simp [ofInt, ofUnits, zero, Format.codeOf, divRoundEven]

/-- an integer with few enough digits before its last zeros is a value -/
theorem ofInt_exact (he : 2 ≤ f.exponentBits) {n : Int} {q k : Nat} (hn : n.natAbs = q * 2 ^ k) (hq : q < 2 * f.binade)
    (hfin : n.natAbs * f.one < f.finiteUnits) :
    (ofInt n : Binary f).isFinite = true ∧ (ofInt n : Binary f).units = n * f.one := by
  have hmag : n.natAbs * f.one = q * 2 ^ (k + f.scale) := by
    rw [hn, f.one_eq, pow_add, mul_assoc]
  have h : (ofInt n : Binary f) = ofUnits (decide (n < 0)) (q * 2 ^ (k + f.scale) * 1) 1 := by
    rw [ofInt, hmag, mul_one]
  rw [hmag] at hfin
  obtain ⟨hfinite, hunits⟩ := ofUnits_exact he (decide (n < 0)) hq hfin Nat.one_pos
  rw [h]
  refine ⟨hfinite, hunits.trans ?_⟩
  rw [← hmag]
  have hone : (f.one : Int) = 2 ^ f.scale := Nat.cast_pow 2 f.scale
  push_cast
  simp only [hone, decide_eq_true_eq]
  split_ifs with hneg
  · rw [abs_of_neg hneg]
    ring
  · rw [abs_of_nonneg (not_lt.1 hneg)]

theorem ofNat_exact (he : 2 ≤ f.exponentBits) {n : Nat} (hn : n < 2 * f.binade) (hfin : n * f.one < f.finiteUnits) :
    (ofNat n : Binary f).isFinite = true ∧ (ofNat n : Binary f).units = (n * f.one : Nat) := by
  rw [Nat.cast_mul]
  exact ofInt_exact he (k := 0) (Nat.mul_one n).symm hn hfin

theorem mul_of_isFinite {x y : Binary f} (hx : x.isFinite = true) (hy : y.isFinite = true) :
    x.mul y = ofUnits (x.negative != y.negative) (x.units.natAbs * y.units.natAbs) f.one := by
  simp only [mul, orNaN, isNaN_of_isFinite hx, isNaN_of_isFinite hy, isInfinite_of_isFinite hx,
    isInfinite_of_isFinite hy, Bool.false_eq_true, if_false, Bool.or_false]

/-- a natural number times a power of two, where both and the product are values -/
theorem mul_ofNat_exact (he : 2 ≤ f.exponentBits) {n e : Nat} (hn : n < 2 * f.binade) (hpow : 2 ^ e < 2 * f.binade)
    (hfin : n * 2 ^ e * f.one < f.finiteUnits) (hone : 2 ^ e * f.one < f.finiteUnits) :
    ((ofNat n : Binary f).mul (ofNat (2 ^ e))).isFinite = true ∧
      ((ofNat n : Binary f).mul (ofNat (2 ^ e))).units = (n * 2 ^ e * f.one : Nat) := by
  have hle : n * f.one ≤ n * 2 ^ e * f.one :=
    Nat.mul_le_mul_right _ (Nat.le_mul_of_pos_right n (Nat.two_pow_pos e))
  obtain ⟨hxf, hxu⟩ := ofNat_exact he hn (lt_of_le_of_lt hle hfin)
  obtain ⟨hyf, hyu⟩ := ofNat_exact he hpow hone
  have hsign : ((ofNat n : Binary f).negative != (ofNat (2 ^ e) : Binary f).negative) = false := by
    simp only [ofNat, ofInt, ofUnits, ofCode, decide_natCast_neg, bne_self_eq_false]
  have hprod : n * f.one * (2 ^ e * f.one) = n * 2 ^ (e + f.scale) * f.one := by
    rw [pow_add, f.one_eq]
    ring
  have hmag : n * 2 ^ e * f.one = n * 2 ^ (e + f.scale) := by
    rw [pow_add, f.one_eq]
    ring
  rw [mul_of_isFinite hxf hyf, hsign, hxu, hyu, Int.natAbs_natCast, Int.natAbs_natCast, hprod, hmag]
  rw [hmag] at hfin
  exact ofUnits_exact he false hn hfin (one_pos f)

end Binary

namespace Number

/-- an integer of at most 53 bits is a Number, and so is the next one -/
theorem ofInt_exact {n : Int} (hn : n.natAbs ≤ 2 ^ 53) :
    (Binary.ofInt n : Double).isFinite = true ∧ (Binary.ofInt n : Double).units = n * Format.double.one := by
  have hfin : n.natAbs * Format.double.one < Format.double.finiteUnits :=
    Format.mul_one_lt (b := 54) (hn.trans_lt (by decide)) (by decide)
  rcases hn.lt_or_eq with hlt | heq
  · have hB : 2 * Format.double.binade = 2 ^ 53 := rfl
    exact Binary.ofInt_exact (by decide) (k := 0) (Nat.mul_one _).symm (hB ▸ hlt) hfin
  · exact Binary.ofInt_exact (by decide) (q := 2 ^ 52) (k := 1) heq (by decide) hfin

end Number

end Vector128
