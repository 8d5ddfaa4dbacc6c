/-
Bytes and the numbers they denote.

- `getElem_ofNat`, `toNat_eq_ofDigits`: what is written and what is read is base 256, lowest digit first.
- `toNat_ofNat`, `ofNat_toNat`, `toInt_ofInt`, `ofInt_toInt`: reading undoes writing up to the bits that there
  is no room for, and writing undoes reading.
- `take_ofInt`: the low bytes of an integer come first, so bytes cut short are the bytes of the integer cut.
- `Binary.ofBits_toBits`, `Binary.toBits_ofBits`: bit patterns of floats, NaN payloads among them.
-/
import Mathlib.Tactic
import Mathlib.Data.Nat.Digits.Defs
import Vector128.Binary.Basic
import Vector128.Memory.Bytes

namespace Vector128

namespace Bytes

@[simp] theorem length_ofNat (count n : Nat) : (ofNat count n).length = count := by
  induction count generalizing n with
  | zero => rfl
  | succ count ih => rw [ofNat, List.length_cons, ih]

@[simp] theorem length_ofInt (count : Nat) (n : Int) : (ofInt count n).length = count := length_ofNat count _

theorem getElem_ofNat {count n i : Nat} (hi : i < (ofNat count n).length) :
    (ofNat count n)[i] = UInt8.ofNat (n / 256 ^ i) := by
  induction count generalizing n i with
  | zero => exact absurd hi (Nat.not_lt_zero i)
  | succ count ih =>
    cases i with
    | zero => simp [ofNat]
    | succ i =>
      simp only [ofNat, List.getElem_cons_succ]
      rw [ih, Nat.div_div_eq_div_mul, pow_succ']

theorem toNat_eq_ofDigits (bytes : List UInt8) : toNat bytes = Nat.ofDigits 256 (bytes.map UInt8.toNat) := by
  induction bytes with
  | nil => rfl
  | cons byte rest ih => rw [toNat, ih, List.map_cons, Nat.ofDigits_cons]

theorem toNat_lt (bytes : List UInt8) : toNat bytes < 256 ^ bytes.length := by
  induction bytes with
  | nil => decide
  | cons byte rest ih =>
    have hb : byte.toNat < 256 := byte.toNat_lt
    rw [toNat, List.length_cons, pow_succ']
    omega

theorem toNat_ofNat (count n : Nat) : toNat (ofNat count n) = n % 256 ^ count := by
  induction count generalizing n with
  | zero => simp [ofNat, toNat, Nat.mod_one]
  | succ count ih =>
    rw [ofNat, toNat, ih, pow_succ', Nat.mod_mul]
    simp

theorem ofNat_toNat (bytes : List UInt8) : ofNat bytes.length (toNat bytes) = bytes := by
  induction bytes with
  | nil => rfl
  | cons byte rest ih =>
    have hb : byte.toNat < 256 := byte.toNat_lt
    have hlow : UInt8.ofNat (byte.toNat + 256 * toNat rest) = byte := by
      apply UInt8.toNat_inj.1
      rw [UInt8.toNat_ofNat']
      omega
    have hhigh : (byte.toNat + 256 * toNat rest) / 256 = toNat rest := by omega
    rw [List.length_cons, toNat, ofNat, hlow, hhigh, ih]

theorem ofNat_mod (count n : Nat) : ofNat count (n % 256 ^ count) = ofNat count n := by
  have h := ofNat_toNat (ofNat count n)
  rwa [length_ofNat, toNat_ofNat] at h

theorem take_ofNat {w count : Nat} (h : w ≤ count) (n : Nat) : (ofNat count n).take w = ofNat w n := by
  induction w generalizing count n with
  | zero => rfl
  | succ w ih =>
    obtain ⟨count, rfl⟩ : ∃ k, count = k + 1 := ⟨count - 1, by omega⟩
    rw [ofNat, List.take_succ_cons, ih (by omega), ofNat]

theorem twoPow_bytes (count : Nat) : twoPow (8 * count) = 256 ^ count := by
  rw [twoPow, Nat.pow_eq, pow_mul]
  norm_num

theorem ofInt_eq (count : Nat) (n : Int) : ofInt count n = ofNat count (n % (256 ^ count : Nat)).toNat := by
  rw [ofInt, twoPow_bytes]

theorem toInt_eq (bytes : List UInt8) : toInt bytes = (toNat bytes : Int).bmod (256 ^ bytes.length) := by
  rw [toInt, twoPow_bytes]

/-- the low bits of an integer, as a natural number -/
theorem cast_toNat_emod (n : Int) (count : Nat) : ((n % (256 ^ count : Nat)).toNat : Int) = n % (256 ^ count : Nat) :=
  Int.toNat_of_nonneg (Int.emod_nonneg n (by positivity))

theorem toInt_ofInt (count : Nat) (n : Int) : toInt (ofInt count n) = n.bmod (twoPow (8 * count)) := by
  rw [toInt, length_ofInt, ofInt_eq, toNat_ofNat, twoPow_bytes, Int.natCast_emod, cast_toNat_emod, Int.emod_emod,
    Int.emod_bmod]

theorem ofInt_toInt (bytes : List UInt8) : ofInt bytes.length (toInt bytes) = bytes := by
  have hlt := toNat_lt bytes
  have hmod : (toInt bytes % (256 ^ bytes.length : Nat)).toNat = toNat bytes := by
    rw [toInt_eq, Int.bmod_emod, ← Int.natCast_emod, Int.toNat_natCast, Nat.mod_eq_of_lt hlt]
  rw [ofInt_eq, hmod, ofNat_toNat]

/-- the low bytes of an integer depend on its low bits only -/
theorem take_ofInt {w count : Nat} (h : w ≤ count) (n : Int) : (ofInt count n).take w = ofInt w n := by
  obtain ⟨d, rfl⟩ := Nat.exists_eq_add_of_le h
  rw [ofInt_eq, ofInt_eq, take_ofNat h, ← ofNat_mod w (n % (256 ^ (w + d) : Nat)).toNat]
  congr 1
  have hdvd : ((256 ^ w : Nat) : Int) ∣ (256 ^ (w + d) : Nat) :=
    Int.natCast_dvd_natCast.2 (pow_dvd_pow 256 (Nat.le_add_right w d))
  rw [← Int.natCast_inj, Int.natCast_emod, cast_toNat_emod, cast_toNat_emod, Int.emod_emod_of_dvd n hdvd]

end Bytes

/-! ## Bit patterns of floats -/

namespace Binary

variable {f : Format}

theorem toBits_lt (x : Binary f) : x.toBits < twoPow (f.codeBits + 1) := by
  have hc : x.code.toNat < 2 ^ f.codeBits := x.code.isLt
  simp only [toBits, twoPow, Nat.pow_eq, pow_succ]
  cases x.negative with
  | false => simp only [Bool.toNat_false, zero_mul]; omega
  | true => simp only [Bool.toNat_true, one_mul]; omega

/-- a bit pattern holds the whole value, the payload of a NaN too -/
theorem ofBits_toBits (x : Binary f) : (ofBits x.toBits : Binary f) = x := by
  obtain ⟨negative, code⟩ := x
  have hc : code.toNat < 2 ^ f.codeBits := code.isLt
  have hsign : (negative.toNat * 2 ^ f.codeBits + code.toNat).testBit f.codeBits = negative := by
    rw [Nat.testBit_eq_decide_div_mod_eq, Nat.add_div_of_dvd_right (dvd_mul_left _ _), Nat.div_eq_of_lt hc,
      Nat.mul_div_cancel _ (by positivity)]
    cases negative <;> rfl
  have hcode : BitVec.ofNat f.codeBits (negative.toNat * 2 ^ f.codeBits + code.toNat) = code := by
    apply BitVec.eq_of_toNat_eq
    rw [BitVec.toNat_ofNat, Nat.mul_add_mod_self_right, Nat.mod_eq_of_lt hc]
  simp only [ofBits, toBits, twoPow, Nat.pow_eq, hsign, hcode]

theorem toBits_ofBits {n : Nat} (h : n < twoPow (f.codeBits + 1)) : (ofBits n : Binary f).toBits = n := by
  simp only [twoPow, Nat.pow_eq, pow_succ] at h
  have hdiv : n / 2 ^ f.codeBits < 2 := Nat.div_lt_of_lt_mul h
  have hsign : (n.testBit f.codeBits).toNat = n / 2 ^ f.codeBits := by
    rw [Nat.testBit_eq_decide_div_mod_eq, Nat.mod_eq_of_lt hdiv]
    interval_cases n / 2 ^ f.codeBits <;> rfl
  simp only [ofBits, toBits, twoPow, Nat.pow_eq, BitVec.toNat_ofNat, hsign]
  exact Nat.div_add_mod' n _

end Binary

end Vector128
