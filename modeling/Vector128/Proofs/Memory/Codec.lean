/-
Elements as bytes: what a Number becomes when it is written as an element, and what bytes become when they are read.

- `ElementKind.converted`: the Number that is left of one, without the bytes in between. Which 32-bit float that is says
  `RoundsTo`.
- `ElementKind.decode_encode`: what is read from the bytes that were written.
- `ElementKind.encode_decode`: the bytes that are written of what was read. Each kind has as many Numbers as there are
  bytes for it, so they come back; only 32-bit NaNs are made quiet on the way.
-/
import Vector128.Proofs.Binary.Nearest
import Vector128.Proofs.Memory.Bytes
import Vector128.Proofs.Memory.ClampedByte

namespace Vector128

/-- The 32-bit float that is nearest to a Number. From the middle between the largest one and `2 ^ 128` on it is an
infinity. -/
structure RoundsTo (x : Double) (y : Single) : Prop where
  nan : y.isNaN = x.isNaN
  sign : y.negative = x.negative
  infinite : x.isNaN = false → (y.isInfinite = true ↔ x.isInfinite = true ∨ (2 ^ 128 - 2 ^ 103 : ℚ) ≤ |x.value|)
  nearest : x.isFinite = true → y.isFinite = true → y.Nearest x.value

theorem isInfinite_toSingle_iff {x : Double} (hx : x.isFinite = true) :
    (x.convert : Single).isInfinite = true ↔ (2 ^ 128 - 2 ^ 103 : ℚ) ≤ |x.value| := by
  have hmiddle : Format.single.unitsOf (Format.single.infinityCode - 1) +
      Format.single.unitsOf Format.single.infinityCode = (2 ^ 128 - 2 ^ 103) * (2 * Format.single.one) := by
    decide +kernel
  have hcast : ((2 ^ 128 - 2 ^ 103 : Nat) : ℚ) = 2 ^ 128 - 2 ^ 103 := by norm_num
  have hone : 0 < 2 * Format.single.one := Nat.mul_pos (by decide) (Binary.one_pos _)
  have hscaled : (2 ^ 128 - 2 ^ 103) * (2 * Format.single.one) * Format.double.one ≤
      2 * (x.units.natAbs * Format.single.one) ↔ (2 ^ 128 - 2 ^ 103) * Format.double.one ≤ x.units.natAbs := by
    rw [mul_right_comm, mul_left_comm 2, Nat.mul_le_mul_right_iff hone]
  rw [Binary.isInfinite_convert_iff (by decide) (by decide) hx, hmiddle, hscaled, Binary.abs_value,
    le_div_iff₀ (Binary.one_cast_pos _), ← hcast, ← Nat.cast_mul, Nat.cast_le]

theorem roundsTo_convert (x : Double) : RoundsTo x x.convert where
  nan := Binary.isNaN_convert (by decide) x
  sign := Binary.negative_convert x
  infinite := by
    intro hnan
    cases hinf : x.isInfinite with
    | true =>
      rw [Binary.eq_infinity hinf, Binary.convert_infinity]
      exact iff_of_true (Binary.isInfinite_infinity _) (Or.inl rfl)
    | false => rw [isInfinite_toSingle_iff (x.isFinite_of_not hnan hinf), or_iff_right Bool.false_ne_true]
  nearest hx hy := Binary.nearest_convert (by decide) hx hy

/-! ## Integers and bytes -/

theorem Bytes.natAbs_toInt_le (bytes : List UInt8) : (toInt bytes).natAbs ≤ 256 ^ bytes.length := by
  have hpos : 0 < 256 ^ bytes.length := Nat.pow_pos (by decide)
  have hlow := Int.le_bmod (x := toNat bytes) hpos
  have hhigh := Int.bmod_lt (x := toNat bytes) hpos
  rw [toInt_eq]
  omega

namespace ElementKind

/-- The Number that is left of one in an element. Integers keep the low bits of its integer part, clamped bytes are the
nearest from 0 to 255, floats the nearest ones. -/
def converted (kind : ElementKind) (x : Double) : Double :=
  match kind with
  | int8 | int16 | int32 => Binary.ofInt (BitVec.ofInt (8 * kind.size) (Number.integerPart x)).toInt
  | uint8 | uint16 | uint32 => Binary.ofNat (BitVec.ofInt (8 * kind.size) (Number.integerPart x)).toNat
  | uint8Clamped =>
    Binary.ofNat (if x.isNaN || x.negative then 0 else min 255 (divRoundEven x.units.natAbs Format.double.one))
  | float32 => (x.convert : Single).convert
  | float64 => x

variable {bits count : Nat} {x : Double}

theorem decode_signed (hcount : bits = 8 * count) (hbits : bits ≤ 52) (x : Double) :
    Bytes.toInt (Bytes.ofInt count (Number.toSigned bits x)) = (BitVec.ofInt bits (Number.integerPart x)).toInt := by
  rw [Bytes.toInt_ofInt, ← hcount, Number.toSigned, Number.lowBits_eq hbits, BitVec.toInt_ofInt]
  exact Int.bmod_bmod

theorem decode_unsigned (hcount : bits = 8 * count) (hbits : bits ≤ 52) (x : Double) :
    Bytes.toNat (Bytes.ofNat count (Number.toUnsigned bits x)) = (BitVec.ofInt bits (Number.integerPart x)).toNat := by
  rw [Bytes.toNat_ofNat, ← Bytes.twoPow_bytes, ← hcount, Number.toUnsigned, Number.lowBits_eq hbits]
  exact Nat.mod_eq_of_lt (BitVec.isLt _)

/-- **What is read is the Number as converted on writing.** -/
theorem decode_encode (kind : ElementKind) (x : Double) : kind.decode (kind.encode x) = kind.converted x := by
  cases kind with
  | int8 | int16 | int32 => exact congrArg Binary.ofInt (decode_signed rfl (by decide) x)
  | uint8 | uint16 | uint32 =>
    rw [decode, Bytes.ofInt_toInt]
    exact congrArg Binary.ofNat (decode_unsigned rfl (by decide) x)
  | uint8Clamped =>
    have hle : clampedByte x ≤ 255 := by
      rw [clampedByte_eq]
      split_ifs
      · exact Nat.zero_le _
      · exact Nat.min_le_left _ _
    rw [decode, Bytes.ofInt_toInt, encode, Bytes.toNat_ofNat, Nat.mod_eq_of_lt (by omega), clampedByte_eq]
    rfl
  | float32 =>
    have hlt : (x.convert : Single).toBits < 256 ^ 4 := Binary.toBits_lt _
    rw [decode, encode, Bytes.toNat_ofNat, Nat.mod_eq_of_lt hlt, Binary.ofBits_toBits]
    rfl
  | float64 =>
    have hlt : x.toBits < 256 ^ 8 := Binary.toBits_lt _
    rw [decode, encode, Bytes.toNat_ofNat, Nat.mod_eq_of_lt hlt, Binary.ofBits_toBits]
    rfl

variable {bytes : List UInt8}

theorem encode_signed (h : bytes.length = count) (hcount : bits = 8 * count) (hle : count ≤ 4) :
    Bytes.ofInt count (Number.toSigned bits (Binary.ofInt (Bytes.toInt bytes))) = bytes := by
  subst h
  have hexact : (Bytes.toInt bytes).natAbs ≤ 2 ^ 53 :=
    (Bytes.natAbs_toInt_le bytes).trans ((Nat.pow_le_pow_right (by decide) hle).trans (by decide))
  have hsame : (Bytes.toInt bytes).bmod (2 ^ bits) = Bytes.toInt bytes := by
    rw [hcount, Bytes.toInt]
    exact Int.bmod_bmod
  rw [Number.toSigned_eq (by omega), Number.integerPart_of_denotes (Number.denotes_ofInt hexact), hsame,
    Bytes.ofInt_toInt]

theorem encode_unsigned (h : bytes.length = count) (hcount : bits = 8 * count) (hle : count ≤ 4) :
    Bytes.ofNat count (Number.toUnsigned bits (Binary.ofNat (Bytes.toNat bytes))) = bytes := by
  subst h
  have hlt : Bytes.toNat bytes < 2 ^ bits := by
    rw [hcount, pow_mul]
    exact Bytes.toNat_lt bytes
  have hexact : 2 ^ bits ≤ 2 ^ 53 := Nat.pow_le_pow_right (by decide) (by omega)
  rw [Number.toUnsigned_of_denotes (by omega) (Number.denotes_ofNat (hlt.trans_le hexact)) hlt, Bytes.ofNat_toNat]

theorem clampedByte_ofNat {k : Nat} (hk : k ≤ 255) : clampedByte (Binary.ofNat k) = k := by
  have hdenotes : (Binary.ofNat k : Double).Denotes k := Number.denotes_ofNat (by omega)
  have hsign : (Binary.ofNat k : Double).negative = false := Binary.decide_natCast_neg k
  rw [clampedByte_eq, Binary.isNaN_of_isFinite hdenotes.finite, hsign, Bool.or_false, if_neg Bool.false_ne_true,
    hdenotes.units, ← Nat.cast_mul, Int.natAbs_natCast, divRoundEven_mul k (Binary.one_pos _), Nat.min_eq_right hk]

/-- **The bytes come back**, unless they are those of a 32-bit NaN. -/
theorem encode_decode (kind : ElementKind) (h : bytes.length = kind.size)
    (hnan : kind = .float32 → (kind.decode bytes).isNaN = false) : kind.encode (kind.decode bytes) = bytes := by
  have hlt := Bytes.toNat_lt bytes
  have hback := Bytes.ofNat_toNat bytes
  rw [h] at hlt hback
  cases kind with
  | int8 | int16 | int32 => exact encode_signed h rfl (by decide)
  | uint8 | uint16 | uint32 =>
    rw [decode, Bytes.ofInt_toInt]
    exact encode_unsigned h rfl (by decide)
  | uint8Clamped =>
    rw [decode, Bytes.ofInt_toInt, encode, clampedByte_ofNat (Nat.le_of_lt_succ hlt)]
    exact hback
  | float32 =>
    have hnumber := hnan rfl
    rw [decode, Binary.isNaN_convert (by decide)] at hnumber
    rw [decode, encode, Binary.convert_convert Format.single_embeds_double (by decide) (by decide) hnumber,
      Binary.toBits_ofBits hlt]
    exact hback
  | float64 =>
    rw [decode, encode, Binary.toBits_ofBits hlt]
    exact hback

end ElementKind

end Vector128
