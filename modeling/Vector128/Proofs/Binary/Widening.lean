/-
A conversion to a format with more digits and more room loses nothing.

Where one format embeds in another (`Format.Embeds`), a finite value is moved to the same magnitude, counted in the
smaller units there (`Binary.convert_exact`), and the way back rounds it to the very code it came from. So every value
that is no NaN comes back (`Binary.convert_convert`). A NaN stays a NaN on both ways (`Binary.isNaN_convert`), but it is
made quiet, and so it may come back as another one.
-/
import Vector128.Proofs.Binary.Exact

namespace Vector128

namespace Format

variable {f g : Format} {r shift : Nat}

/-- every finite magnitude of a format is one of another: there are as many digits, and room at both ends -/
structure Embeds (f g : Format) : Prop where
  digits : f.fractionBits ≤ g.fractionBits
  small : f.scale ≤ g.scale
  large : f.finiteUnits * 2 ^ (g.scale - f.scale) ≤ g.finiteUnits

theorem single_embeds_double : single.Embeds double where
  digits := by decide
  small := by decide
  large := by
    rw [finiteUnits, finiteUnits, ← pow_add]
    exact Nat.pow_le_pow_right (by decide) (by decide)

theorem Embeds.one_eq (h : f.Embeds g) : g.one = 2 ^ (g.scale - f.scale) * f.one := by
  show 2 ^ g.scale = 2 ^ (g.scale - f.scale) * 2 ^ f.scale
  rw [← pow_add, Nat.sub_add_cancel h.small]

/-- a finite code is one of a magnitude below the bound of finite ones -/
theorem Aligned.lt_finiteUnits (h : f.Aligned r shift) (he : 2 ≤ f.exponentBits)
    (hfin : shift * f.binade + r < f.infinityCode) : r * 2 ^ shift < f.finiteUnits := by
  have hd := h.digits
  have h4 : 2 ^ 2 ≤ 2 ^ f.exponentBits := Nat.pow_le_pow_right (by decide) he
  have hshift : 1 + shift ≤ 2 ^ f.exponentBits - 2 := by
    rcases h.leading with rfl | hlead
    · omega
    · have hlt : (shift + 1) * f.binade < (2 ^ f.exponentBits - 1) * f.binade := by
        refine lt_of_le_of_lt ?_ hfin
        rw [Nat.succ_mul]
        omega
      have := lt_of_mul_lt_mul_right hlt (Nat.zero_le _)
      omega
  calc r * 2 ^ shift < 2 * f.binade * 2 ^ shift := Nat.mul_lt_mul_of_pos_right hd (Nat.two_pow_pos _)
    _ = 2 ^ (f.fractionBits + (1 + shift)) := by
      rw [binade_eq, pow_add, pow_add, pow_one]
      ring
    _ ≤ f.finiteUnits := Nat.pow_le_pow_right (by decide) (Nat.add_le_add_left hshift _)

end Format

namespace Binary

variable {f g : Format}

theorem eq_ofCode (x : Binary f) : x = ofCode x.negative x.code.toNat := by
  rw [ofCode, BitVec.ofNat_toNat, BitVec.setWidth_eq]

theorem eq_infinity {x : Binary f} (h : x.isInfinite = true) : x = infinity x.negative := by
  have hcode : x.code.toNat = f.infinityCode := of_decide_eq_true h
  rw [infinity, ← hcode]
  exact x.eq_ofCode

theorem natAbs_units (x : Binary f) : x.units.natAbs = f.unitsOf x.code.toNat := by
  rw [units]
  split_ifs
  · rw [Int.natAbs_neg, Int.natAbs_natCast]
  · rw [Int.natAbs_natCast]

theorem units_eq_natAbs (x : Binary f) :
    x.units = if x.negative then -(x.units.natAbs : Int) else x.units.natAbs := by
  rw [natAbs_units, units]

theorem isZero_iff_units (x : Binary f) : x.isZero = true ↔ x.units = 0 := by
  rw [isZero, decide_eq_true_iff, ← Format.unitsOf_eq_zero_iff, ← natAbs_units, Int.natAbs_eq_zero]

theorem isFinite_of_not (x : Binary f) (hn : x.isNaN = false) (hi : x.isInfinite = false) : x.isFinite = true := by
  have h1 := of_decide_eq_false hn
  have h2 := of_decide_eq_false hi
  exact decide_eq_true (by omega)

theorem isNaN_ofUnits (negative : Bool) (num den : Nat) : (ofUnits negative num den : Binary f).isNaN = false := by
  rw [isNaN, toNat_code_ofUnits]
  exact decide_eq_false (not_lt.2 (Nat.min_le_right _ _))

theorem toNat_code_infinity (negative : Bool) : (infinity negative : Binary f).code.toNat = f.infinityCode :=
  toNat_code_ofCode negative le_rfl

theorem isNaN_infinity (negative : Bool) : (infinity negative : Binary f).isNaN = false := by
  rw [isNaN, toNat_code_infinity]
  exact decide_eq_false (lt_irrefl _)

theorem isInfinite_infinity (negative : Bool) : (infinity negative : Binary f).isInfinite = true := by
  rw [isInfinite, toNat_code_infinity]
  exact decide_eq_true rfl

theorem isZero_infinity (he : 2 ≤ f.exponentBits) (negative : Bool) : (infinity negative : Binary f).isZero = false := by
  rw [isZero, toNat_code_infinity]
  exact decide_eq_false (f.infinityCode_pos he).ne'

/-- a code with an exponent field of ones is a NaN's once the leading fraction bit is set -/
theorem isNaN_quiet_ofCode (hf : 0 < f.fractionBits) (negative : Bool) {code : Nat} (hlow : f.infinityCode ≤ code)
    (hhigh : code < 2 ^ f.codeBits) : (ofCode negative code : Binary f).quiet.isNaN = true := by
  have hbit : f.quietBit < 2 ^ f.codeBits :=
    Nat.pow_lt_pow_right (by decide) (show f.fractionBits - 1 < f.exponentBits + f.fractionBits by omega)
  have hcode : (ofCode negative code : Binary f).quiet.code.toNat = code ||| f.quietBit := by
    rw [quiet, ofCode, BitVec.toNat_or, BitVec.toNat_ofNat, BitVec.toNat_ofNat, Nat.mod_eq_of_lt hhigh,
      Nat.mod_eq_of_lt hbit]
  have hset : (code ||| f.quietBit).testBit (f.fractionBits - 1) = true := by
    rw [Nat.testBit_or, show f.quietBit = 2 ^ (f.fractionBits - 1) from rfl, Nat.testBit_two_pow_self, Bool.or_true]
  have hclear : f.infinityCode.testBit (f.fractionBits - 1) = false := by
    rw [show f.infinityCode = (twoPow f.exponentBits - 1) * 2 ^ f.fractionBits from rfl, Nat.testBit_mul_two_pow]
    simp [hf]
  have hne : code ||| f.quietBit ≠ f.infinityCode := by
    intro h
    rw [h, hclear] at hset
    cases hset
  have hle : f.infinityCode ≤ code ||| f.quietBit := hlow.trans Nat.left_le_or
  rw [isNaN, hcode]
  exact decide_eq_true (lt_of_le_of_ne hle hne.symm)

/-- **A conversion keeps NaNs apart from numbers.** -/
theorem isNaN_convert (hg : 0 < g.fractionBits) (x : Binary f) : (x.convert : Binary g).isNaN = x.isNaN := by
  unfold convert
  split_ifs with hn hi
  · have hpayload : x.code.toNat % f.binade * g.binade / f.binade < g.binade := by
      rw [Nat.div_lt_iff_lt_mul f.binade_pos, Nat.mul_comm g.binade]
      exact Nat.mul_lt_mul_of_pos_right (Nat.mod_lt _ f.binade_pos) g.binade_pos
    have hroom : g.infinityCode + g.binade = 2 ^ g.codeBits := by
      rw [show g.infinityCode = (2 ^ g.exponentBits - 1) * g.binade from rfl, ← Nat.succ_mul, Nat.succ_eq_add_one,
        Nat.sub_add_cancel (Nat.two_pow_pos _), Format.codeBits, pow_add]
      rfl
    rw [hn]
    exact isNaN_quiet_ofCode hg _ (Nat.le_add_right _ _) (by omega)
  · rw [isNaN_infinity]
    exact (Bool.eq_false_iff.2 hn).symm
  · rw [isNaN_ofUnits]
    exact (Bool.eq_false_iff.2 hn).symm

/-! ## To a larger format and back -/

theorem convert_infinity (negative : Bool) : ((infinity negative : Binary f).convert : Binary g) = infinity negative := by
  rw [convert, isNaN_infinity, isInfinite_infinity, if_neg Bool.false_ne_true, if_pos rfl]
  rfl

/-- a finite value in a format that has it: the same sign and the same magnitude, in the units there -/
theorem convert_exact (h : f.Embeds g) (hf : 2 ≤ f.exponentBits) (hg : 2 ≤ g.exponentBits) {x : Binary f}
    (hx : x.isFinite = true) :
    (x.convert : Binary g).isFinite = true ∧ (x.convert : Binary g).negative = x.negative ∧
      (x.convert : Binary g).units.natAbs = x.units.natAbs * 2 ^ (g.scale - f.scale) := by
  obtain ⟨r, shift, hr, hcode⟩ := f.exists_aligned_code x.code.toNat
  have hfin : x.code.toNat < f.infinityCode := of_decide_eq_true hx
  have hnum : x.units.natAbs * g.one = r * 2 ^ (shift + (g.scale - f.scale)) * f.one := by
    rw [natAbs_units, hcode, hr.unitsOf, h.one_eq, pow_add]
    ring
  have hdigits : r < 2 * g.binade :=
    hr.digits.trans_le (Nat.mul_le_mul_left 2 (Nat.pow_le_pow_right (by decide) h.digits))
  have hlarge : r * 2 ^ (shift + (g.scale - f.scale)) < g.finiteUnits := by
    rw [pow_add, ← mul_assoc]
    exact (Nat.mul_lt_mul_of_pos_right (hr.lt_finiteUnits hf (hcode ▸ hfin)) (Nat.two_pow_pos _)).trans_le h.large
  have hconv : (x.convert : Binary g) =
      ofUnits x.negative (r * 2 ^ (shift + (g.scale - f.scale)) * f.one) f.one := by
    rw [convert, isNaN_of_isFinite hx, isInfinite_of_isFinite hx, if_neg Bool.false_ne_true, if_neg Bool.false_ne_true,
      hnum]
  obtain ⟨hfinite, hunits⟩ := ofUnits_exact hg x.negative hdigits hlarge (one_pos f)
  rw [hconv]
  refine ⟨hfinite, rfl, ?_⟩
  have hmag : x.units.natAbs * 2 ^ (g.scale - f.scale) = r * 2 ^ (shift + (g.scale - f.scale)) := by
    rw [natAbs_units, hcode, hr.unitsOf, pow_add]
    ring
  rw [hunits, hmag]
  split_ifs
  · rw [Int.natAbs_neg, Int.natAbs_natCast]
  · rw [Int.natAbs_natCast]

/-- **A value that is no NaN comes back from a larger format**, the sign of a zero with it. -/
theorem convert_convert (h : f.Embeds g) (hf : 2 ≤ f.exponentBits) (hg : 2 ≤ g.exponentBits) {x : Binary f}
    (hn : x.isNaN = false) : ((x.convert : Binary g).convert : Binary f) = x := by
  cases hi : x.isInfinite with
  | true =>
    rw [eq_infinity hi, convert_infinity, convert_infinity]
  | false =>
    have hx := isFinite_of_not x hn hi
    have hfin : x.code.toNat < f.infinityCode := of_decide_eq_true hx
    obtain ⟨r, shift, hr, hcode⟩ := f.exists_aligned_code x.code.toNat
    obtain ⟨hfinite, hsign, hunits⟩ := convert_exact h hf hg hx
    have hnum : x.units.natAbs * 2 ^ (g.scale - f.scale) * f.one = r * 2 ^ shift * g.one := by
      rw [natAbs_units, hcode, hr.unitsOf, h.one_eq]
      ring
    rw [convert, isNaN_of_isFinite hfinite, isInfinite_of_isFinite hfinite, if_neg Bool.false_ne_true,
      if_neg Bool.false_ne_true, hsign, hunits, hnum, ofUnits, hr.codeOf (one_pos g), ← hcode, Nat.min_eq_left hfin.le]
    exact x.eq_ofCode.symm

/-- **A conversion to a larger format keeps the zeros apart from the other numbers.** -/
theorem isZero_convert (h : f.Embeds g) (hf : 2 ≤ f.exponentBits) (hg : 2 ≤ g.exponentBits) {x : Binary f}
    (hn : x.isNaN = false) : (x.convert : Binary g).isZero = x.isZero := by
  cases hi : x.isInfinite with
  | true => rw [eq_infinity hi, convert_infinity, isZero_infinity hf, isZero_infinity hg]
  | false =>
    obtain ⟨-, -, hunits⟩ := convert_exact h hf hg (x.isFinite_of_not hn hi)
    rw [Bool.eq_iff_iff, isZero_iff_units, isZero_iff_units, ← Int.natAbs_eq_zero, hunits, Nat.mul_eq_zero,
      Int.natAbs_eq_zero]
    exact or_iff_left (Nat.two_pow_pos _).ne'

end Binary

end Vector128
