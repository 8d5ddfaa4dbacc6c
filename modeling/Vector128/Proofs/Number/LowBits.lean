/-
The low bits of a Number are those of its integer part.

They are computed on Numbers, and every step is exact: the fraction is dropped, the remainder by the modulus taken, and
the modulus added to what is below zero. So what becomes a word is the integer part modulo `2 ^ bits`, however large the
Number is (`Number.denotes_residue`), and its reading without a sign and with one are residues of the integer part
(`Number.toUnsigned_eq`, `Number.toSigned_eq`). Fewer low bits are low bits of these.
-/
import Mathlib.Data.Int.Bitwise
import Vector128.Shape
import Vector128.Proofs.Binary.Remainder
import Vector128.Proofs.Binary.Value

namespace Vector128

theorem LaneWidth.bits_pos (w : LaneWidth) : 0 < w.bits := by
  cases w <;> decide

theorem LaneWidth.bits_le (w : LaneWidth) : w.bits ≤ 32 := by
  cases w <;> decide

section LowBits

variable {m n : Nat} {a b : Int}

theorem ofInt_eq_ofInt_iff : BitVec.ofInt n a = BitVec.ofInt n b ↔ a ≡ b [ZMOD 2 ^ n] := by
  have hpos : (2 : Int) ^ n ≠ 0 := by positivity
  have ha := Int.emod_nonneg a hpos
  have hb := Int.emod_nonneg b hpos
  rw [← BitVec.toNat_inj, BitVec.toNat_ofInt, BitVec.toNat_ofInt, Int.ModEq]
  push_cast
  constructor
  · intro h
    rw [← Int.toNat_of_nonneg ha, h, Int.toNat_of_nonneg hb]
  · intro h
    rw [h]

theorem getLsbD_ofInt (n i : Nat) (a : Int) : (BitVec.ofInt n a).getLsbD i = (decide (i < n) && a.testBit i) := by
  cases a with
  | ofNat m => exact BitVec.getLsbD_ofNat n m i
  | negSucc m =>
    rw [BitVec.ofInt_negSucc_eq_not_ofNat, BitVec.getLsbD_not, BitVec.getLsbD_ofNat]
    cases h : decide (i < n) with
    | false => rfl
    | true => rfl

theorem setWidth_ofInt (h : m ≤ n) (a : Int) : (BitVec.ofInt n a).setWidth m = BitVec.ofInt m a := by
  apply BitVec.eq_of_getLsbD_eq
  intro i hi
  have hin : i < n := lt_of_lt_of_le hi h
  simp only [BitVec.getLsbD_setWidth, getLsbD_ofInt, hi, hin, decide_true, Bool.true_and]

/-- the low bits of a signed reading -/
theorem ofInt_toInt (h : m ≤ n) (x : BitVec n) : BitVec.ofInt m x.toInt = x.setWidth m :=
  BitVec.signExtend_eq_setWidth_of_le x h

end LowBits

/-! ## Low bits of Numbers -/

namespace Number

open Binary (Denotes)

variable {x y : Double} {bits : Nat} {n m : Int}

theorem integerPart_eq (hx : x.isFinite = true) : integerPart x = x.units.tdiv Format.double.one := by
  rw [integerPart, Binary.truncate?, if_pos hx, Option.getD_some]

theorem integerPart_of_not_isFinite (hx : x.isFinite = false) : integerPart x = 0 := by
  rw [integerPart, Binary.truncate?, hx, if_neg Bool.false_ne_true, Option.getD_none]

theorem integerPart_of_number? {q : ℚ} (hq : x.number? = some (.ofRat q)) : integerPart x = towardZero q := by
  rw [integerPart, Binary.truncate?_eq_some_iff.2 ⟨q, hq, rfl⟩, Option.getD_some]

theorem denotes_trunc (hx : x.isFinite = true) : x.trunc.Denotes (integerPart x) := by
  obtain ⟨hfinite, hunits⟩ := Binary.trunc_exact (by decide) hx
  exact ⟨hfinite, hunits.trans (by rw [integerPart_eq hx])⟩

theorem denotes_rem (hx : x.Denotes n) (hy : y.Denotes m) (hm : m ≠ 0) : (x.rem y).Denotes (n.tmod m) := by
  have hone : (0 : Int) < Format.double.one := Int.natCast_pos.2 (Binary.one_pos _)
  have hne : y.units ≠ 0 := by
    rw [hy.units]
    exact mul_ne_zero hm hone.ne'
  obtain ⟨hfinite, hunits⟩ := Binary.rem_exact (by decide) hx.finite hy.finite hne
  refine ⟨hfinite, hunits.trans ?_⟩
  rw [hx.units, hy.units, mul_comm n, mul_comm m, Int.mul_tmod_mul_of_pos _ _ hone, mul_comm]

/-- **What becomes a word is the residue of the integer part**, and nothing on the way to it is rounded. -/
theorem denotes_residue (hbits : bits ≤ 52) (hx : x.isFinite = true) :
    (residue bits x).Denotes (integerPart x % 2 ^ bits) := by
  have hpow : 2 ^ bits < 2 ^ 53 := Nat.pow_lt_pow_right (by decide) (Nat.lt_succ_of_le hbits)
  have hlt : (2 : Int) ^ bits < 2 ^ 53 := by exact_mod_cast hpow
  have hpos : (0 : Int) < 2 ^ bits := by positivity
  have hmodulus : (Binary.ofNat (twoPow bits) : Double).Denotes (2 ^ bits) := by
    have h := denotes_ofNat hpow
    push_cast at h
    exact h
  have hrest := denotes_rem (denotes_trunc hx) hmodulus hpos.ne'
  have hlow := Int.lt_tmod_of_pos (integerPart x) hpos
  have hhigh := Int.tmod_lt_of_pos (integerPart x) hpos
  have hmod : integerPart x % 2 ^ bits = (integerPart x).tmod (2 ^ bits) % 2 ^ bits := by
    rw [Int.tmod_def, Int.sub_mul_emod_self_left]
  unfold residue
  dsimp only
  split_ifs with hneg
  · rw [hrest.less_iff denotes_zero] at hneg
    have hsum : integerPart x % 2 ^ bits = (integerPart x).tmod (2 ^ bits) + 2 ^ bits := by
      rw [hmod, ← Int.add_emod_right, Int.emod_eq_of_lt (by omega) (by omega)]
    rw [hsum]
    exact denotes_add hrest hmodulus (by omega)
  · rw [hrest.less_iff denotes_zero] at hneg
    rw [hmod, Int.emod_eq_of_lt (by omega) hhigh]
    exact hrest

/-- **The low bits of a Number are the low bits of its integer part.** -/
theorem lowBits_eq (hbits : bits ≤ 52) (x : Double) : lowBits bits x = BitVec.ofInt bits (integerPart x) := by
  unfold lowBits
  split_ifs with hx
  · have hpos : (0 : Int) < 2 ^ bits := by positivity
    obtain ⟨k, hk⟩ := Int.eq_ofNat_of_zero_le (Int.emod_nonneg (integerPart x) hpos.ne')
    have hresidue := denotes_residue hbits hx
    rw [hk] at hresidue
    have hword : k ≤ twoPow 64 - 1 := by
      have hlt : k < 2 ^ bits := by
        have := Int.emod_lt_of_pos (integerPart x) hpos
        rw [hk] at this
        exact_mod_cast this
      exact (hlt.le.trans (Nat.pow_le_pow_right (by decide) hbits)).trans (by decide)
    have hofNat : BitVec.ofNat bits k = BitVec.ofInt bits k := rfl
    rw [clamped_of_denotes hresidue hword, hofNat, ofInt_eq_ofInt_iff, ← hk]
    exact Int.mod_modEq _ _
  · rw [integerPart_of_not_isFinite (Bool.eq_false_iff.2 hx)]
    rfl

/-- the reading without a sign is the residue of the integer part from zero on -/
theorem toUnsigned_eq (hbits : bits ≤ 52) (x : Double) : (toUnsigned bits x : Int) = integerPart x % 2 ^ bits := by
  have hpos : (0 : Int) < 2 ^ bits := by positivity
  rw [toUnsigned, lowBits_eq hbits, BitVec.toNat_ofInt, Nat.cast_pow, Nat.cast_ofNat,
    Int.toNat_of_nonneg (Int.emod_nonneg _ hpos.ne')]

/-- the reading with a sign is the residue next to zero -/
theorem toSigned_eq (hbits : bits ≤ 52) (x : Double) : toSigned bits x = (integerPart x).bmod (2 ^ bits) := by
  rw [toSigned, lowBits_eq hbits, BitVec.toInt_ofInt]

theorem eq_toUnsigned_iff (hbits : bits ≤ 52) :
    n = toUnsigned bits x ↔ 0 ≤ n ∧ n < 2 ^ bits ∧ n ≡ integerPart x [ZMOD 2 ^ bits] := by
  have hpos : (0 : Int) < 2 ^ bits := by positivity
  rw [toUnsigned_eq hbits]
  constructor
  · rintro rfl
    exact ⟨Int.emod_nonneg _ hpos.ne', Int.emod_lt_of_pos _ hpos, Int.mod_modEq _ _⟩
  · rintro ⟨hlow, hhigh, hmod⟩
    rw [← hmod, Int.emod_eq_of_lt hlow hhigh]

theorem eq_toSigned_iff (hpos : 0 < bits) (hbits : bits ≤ 52) :
    n = toSigned bits x ↔ -2 ^ (bits - 1) ≤ n ∧ n < 2 ^ (bits - 1) ∧ n ≡ integerPart x [ZMOD 2 ^ bits] := by
  rw [toSigned, lowBits_eq hbits, ← ofInt_eq_ofInt_iff]
  constructor
  · rintro rfl
    exact ⟨BitVec.le_toInt _, BitVec.toInt_lt, BitVec.ofInt_toInt⟩
  · rintro ⟨hlow, hhigh, hmod⟩
    rw [← hmod, BitVec.toInt_ofInt_eq_self hpos hlow hhigh]

theorem ofInt_toSigned (bits : Nat) (x : Double) : BitVec.ofInt bits (toSigned bits x) = lowBits bits x :=
  BitVec.ofInt_toInt

theorem ofNat_toUnsigned (bits : Nat) (x : Double) : BitVec.ofNat bits (toUnsigned bits x) = lowBits bits x := by
  rw [toUnsigned, BitVec.ofNat_toNat, BitVec.setWidth_eq]

theorem setWidth_lowBits {fewer : Nat} (hle : fewer ≤ bits) (hbits : bits ≤ 52) (x : Double) :
    (lowBits bits x).setWidth fewer = lowBits fewer x := by
  rw [lowBits_eq hbits, lowBits_eq (hle.trans hbits), setWidth_ofInt hle]

end Number

open Number in
/-- **Modular conversions are exact on every Number, and agree across widths.** A NaN and an infinity become zero. Any
other Number is a rational, and it becomes the one integer of the range that is congruent to it without its fraction,
which is computed without rounding. With a sign and without one the bits are the same, and with fewer bits they are the
lowest of the 32. -/
theorem modular_conversions_exact (x : Double) (w : LaneWidth) :
    (x.isNaN = true ∨ x.isInfinite = true → toUnsigned w.bits x = 0 ∧ toSigned w.bits x = 0) ∧
    (∀ q, x.number? = some (.ofRat q) →
      (residue w.bits x).Denotes (towardZero q % 2 ^ w.bits) ∧
      (∀ n : Int, n = toUnsigned w.bits x ↔ 0 ≤ n ∧ n < 2 ^ w.bits ∧ n ≡ towardZero q [ZMOD 2 ^ w.bits]) ∧
      ∀ n : Int, n = toSigned w.bits x ↔
        -2 ^ (w.bits - 1) ≤ n ∧ n < 2 ^ (w.bits - 1) ∧ n ≡ towardZero q [ZMOD 2 ^ w.bits]) ∧
    BitVec.ofInt w.bits (toSigned w.bits x) = BitVec.ofNat w.bits (toUnsigned w.bits x) ∧
    BitVec.ofNat w.bits (toUnsigned w.bits x) = (BitVec.ofNat 32 (toUnsigned 32 x)).setWidth w.bits ∧
    BitVec.ofInt w.bits (toSigned w.bits x) = (BitVec.ofInt 32 (toSigned 32 x)).setWidth w.bits := by
  have hbits : w.bits ≤ 52 := w.bits_le.trans (by decide)
  refine ⟨?_, ?_, ?_, ?_, ?_⟩
  · intro hx
    have hfinite : x.isFinite = false := by
      rw [Bool.eq_false_iff]
      rcases hx with hx | hx
      · exact fun hfin => absurd (hx.symm.trans (Binary.isNaN_of_isFinite hfin)) nofun
      · exact fun hfin => absurd (hx.symm.trans (Binary.isInfinite_of_isFinite hfin)) nofun
    have hlow : lowBits w.bits x = 0 := by rw [lowBits, hfinite, if_neg Bool.false_ne_true]
    rw [toUnsigned, toSigned, hlow]
    exact ⟨rfl, BitVec.toInt_zero⟩
  · intro q hq
    have hfinite := (Binary.number?_eq_ofRat_iff.1 hq).1
    rw [← integerPart_of_number? hq]
    exact ⟨denotes_residue hbits hfinite, fun n => eq_toUnsigned_iff hbits, fun n => eq_toSigned_iff w.bits_pos hbits⟩
  · rw [ofInt_toSigned, ofNat_toUnsigned]
  · rw [ofNat_toUnsigned, ofNat_toUnsigned, setWidth_lowBits w.bits_le (by decide)]
  · rw [ofInt_toSigned, ofInt_toSigned, setWidth_lowBits w.bits_le (by decide)]

open Number in
/-- The number -4294967297.5, one and a half below `-2 ^ 32`, is -1 or the greatest word at every width. -/
theorem modular_conversions_exact_negative :
    let x : Double := .ofBits 0xC1F0000000180000
    ∃ q, x.number? = some (.ofRat q) ∧ towardZero q = -4294967297 ∧ toUnsigned 8 x = 255 ∧ toSigned 16 x = -1 ∧
      (residue 32 x).Denotes 4294967295 ∧ toSigned 32 (Binary.infinity true) = 0 := by
  intro x
  have htruncate : x.truncate? = some (-4294967297) := by decide +kernel
  obtain ⟨q, hq, hinteger⟩ := Binary.truncate?_eq_some_iff.1 htruncate
  obtain ⟨-, hbyte, -⟩ := modular_conversions_exact x .w8
  obtain ⟨-, hhalf, -⟩ := modular_conversions_exact x .w16
  obtain ⟨-, hword, -⟩ := modular_conversions_exact x .w32
  obtain ⟨hinfinite, -⟩ := modular_conversions_exact (Binary.infinity true) .w32
  have hunsigned : (255 : Int) = toUnsigned 8 x := ((hbyte q hq).2.1 255).2 (by rw [hinteger]; decide)
  have hsigned : -1 = toSigned 16 x := ((hhalf q hq).2.2 (-1)).2 (by rw [hinteger]; decide)
  have hresidue := (hword q hq).1
  rw [hinteger] at hresidue
  exact ⟨q, hq, hinteger, (Int.ofNat_inj.1 hunsigned).symm, hsigned.symm, hresidue,
    (hinfinite (Or.inr (Binary.isInfinite_infinity true))).2⟩

end Vector128
