/-
Casting a scalar into a lane goes by its Number alone.

An integer lane keeps the bits of a scalar that is as wide, wraps one of the other sign, and takes any other scalar
through a Number. All three are the low bits of the integer part of the Number that the scalar is (`Shape.cast_ints`): an
integer scalar is that Number exactly, so its low bits are the same on either way, and those that a lane has no room for
are cut by the last step. A float lane rounds an integer of 32 bits without a Number, which would have been exact, so
rounding it once more changes nothing (`Scalar.toSingle_eq`). A truth value looks at zero and NaN only
(`Scalar.toBool_eq`). Of a NaN only that it is one goes through a Number, which is what `Lane.Same` leaves open.
-/
import Vector128.Proofs.Packed.Range

namespace Vector128

/-- the same lane bit by bit, save that a NaN may be another one -/
def Lane.Same : Lane → Lane → Prop
  | .float x, .float y => x = y ∨ x.isNaN = true ∧ y.isNaN = true
  | l, m => l = m

theorem Lane.Same.refl (l : Lane) : l.Same l := by
  cases l with
  | float x => exact Or.inl rfl
  | int n => rfl
  | bool b => rfl

namespace Scalar

variable {x : Scalar} {n : Int}

theorem toDouble_of_int (hx : x.int? = some n) : x.toDouble = Binary.ofInt n := by
  cases x with
  | single _ | double _ | bool _ => cases hx
  | _ =>
    obtain rfl := Option.some.inj hx
    rfl

theorem natAbs_lt (hx : x.int? = some n) : n.natAbs < 2 ^ 32 := by
  cases x with
  | single _ | double _ | bool _ => cases hx
  | int32 k | int16 k | int8 k =>
    obtain rfl := Option.some.inj hx
    have := k.le_toInt
    have := k.toInt_lt
    omega
  | uint32 k | uint16 k | uint8 k =>
    obtain rfl := Option.some.inj hx
    have := k.toNat_lt
    omega

/-- **An integer scalar is a Number exactly.** -/
theorem denotes_toDouble (hx : x.int? = some n) : x.toDouble.Denotes n := by
  rw [toDouble_of_int hx]
  exact Number.denotes_ofInt ((natAbs_lt hx).le.trans (by decide))

theorem integerPart_toDouble (hx : x.int? = some n) : Number.integerPart x.toDouble = n :=
  Number.integerPart_of_denotes (denotes_toDouble hx)

/-- rounding the Number of an integer scalar is rounding the integer -/
theorem convert_toDouble (hx : x.int? = some n) : (x.toDouble.convert : Single) = Binary.ofInt n := by
  have hexact := denotes_toDouble hx
  rw [toDouble_of_int hx] at hexact ⊢
  exact Binary.convert_ofInt hexact

/-! ## Lanes -/

/-- **Cut to the lane width, all ways into an integer lane are one.** -/
theorem wrap_toStored (s : Shape) (x : Scalar) :
    s.width.wrap (x.toStored s) = s.width.wrap (Number.integerPart x.toDouble) := by
  have hwrap : ∀ (w : LaneWidth) (n : Int), w.wrap (w.wrap n) = w.wrap n := fun _ _ => Int.bmod_bmod
  have hbits : s.width.bits ≤ 52 := s.width.bits_le.trans (by decide)
  unfold toStored
  split
  · rw [integerPart_toDouble rfl]
  · rename_i hw
    rw [integerPart_toDouble rfl, hw, hwrap]
  · rw [integerPart_toDouble rfl]
  · rename_i hw
    rw [integerPart_toDouble rfl, hw, hwrap]
  · rw [integerPart_toDouble rfl]
  · rename_i hw
    rw [integerPart_toDouble rfl, hw, hwrap]
  · split_ifs
    · rw [hwrap, Number.toUnsigned_eq hbits]
      exact Shape.wrap_congr (Int.mod_modEq _ _)
    · rw [Number.toSigned_eq hbits]
      exact hwrap _ _

/-- **A float lane is the scalar's Number, rounded**, or a NaN where the scalar is one. -/
theorem toSingle_eq (x : Scalar) : (Lane.float x.toSingle).Same (.float x.toDouble.convert) := by
  cases x with
  | single v =>
    cases hv : v.isNaN with
    | true =>
      refine Or.inr ⟨hv, ?_⟩
      rw [toDouble, Binary.isNaN_convert (by decide), Binary.isNaN_convert (by decide), hv]
    | false =>
      exact Or.inl (Binary.convert_convert Format.single_embeds_double (by decide) (by decide) hv).symm
  | int32 _ | uint32 _ => exact Or.inl (convert_toDouble rfl).symm
  | double _ | bool _ | int16 _ | uint16 _ | int8 _ | uint8 _ => exact Or.inl rfl

/-- **The truth of a scalar is that of its Number.** -/
theorem toBool_eq (x : Scalar) : x.toBool = x.toDouble.truthy := by
  cases x with
  | single v =>
    show v.truthy = (v.convert : Double).truthy
    cases hv : v.isNaN with
    | true => simp only [Binary.truthy, Binary.isNaN_convert (g := .double) (by decide), hv, Bool.or_true]
    | false =>
      rw [Binary.truthy, Binary.truthy, Binary.isNaN_convert (by decide),
        Binary.isZero_convert Format.single_embeds_double (by decide) (by decide) hv]
  | double v => rfl
  | bool b => cases b <;> decide +kernel
  | _ => exact (Number.truthy_of_isFinite (denotes_toDouble rfl).finite).symm

end Scalar

namespace Shape

variable {s : Shape}

/-- **An integer lane has the low bits of the integer part of the Number.** -/
theorem cast_ints (hs : s.isInteger = true) (x : Scalar) :
    s.cast x = .int (s.width.wrap (Number.integerPart x.toDouble)) := by
  rw [← Scalar.wrap_toStored]
  rcases kind_of_isInteger hs with hk | hk
  · rw [cast, hk, normalize]
  · rw [cast, hk, normalize]

theorem accepts_cast (s : Shape) (x : Scalar) : s.accepts (s.cast x) = true := by
  cases s <;> rfl

theorem normalize_cast (s : Shape) (x : Scalar) : s.normalize (s.cast x) = s.cast x := s.normalize_normalize _

theorem cast_same (s : Shape) (x : Scalar) : (s.cast x).Same (s.cast (.double x.toDouble)) := by
  rcases s.kind_cases with hs | hs | hs
  · rw [eq_float32x4 hs]
    exact x.toSingle_eq
  · rw [cast_ints hs, cast_ints hs]
    rfl
  · have hbool : ∀ y : Scalar, s.cast y = .bool y.toBool := fun y => by cases s <;> cases hs <;> rfl
    rw [hbool, hbool, x.toBool_eq]
    rfl

end Shape

/-- **A scalar is cast as the Number that it is**, whatever scalar and whatever shape: bit for bit, save which NaN a
float lane is. An integer scalar is that Number exactly. An integer lane is stored with the sign of its width, and what
scripts see of it is the one integer of the range that is congruent to the Number without its fraction, which counts as
zero for a NaN or an infinity. -/
theorem cast_through_number (s : Shape) (x : Scalar) :
    (s.cast x).Same (s.cast (.double x.toDouble)) ∧
    (∀ n, x.int? = some n → x.toDouble.Denotes n) ∧
    ∀ low high, s.range? = some (low, high) → ∃ n t, s.cast x = .int n ∧ s.width.wrap n = n ∧
      (∀ q, x.toDouble.number? = some (.ofRat q) → t = towardZero q) ∧ (x.toDouble.isFinite = false → t = 0) ∧
      ∀ m, m = s.visible n ↔ low ≤ m ∧ m ≤ high ∧ m ≡ t [ZMOD 2 ^ s.width.bits] := by
  refine ⟨s.cast_same x, fun n => Scalar.denotes_toDouble, ?_⟩
  intro low high h
  have hstored : s.width.wrap (s.width.wrap (Number.integerPart x.toDouble)) =
      s.width.wrap (Number.integerPart x.toDouble) := Int.bmod_bmod
  have hmem := Shape.visible_mem h hstored
  have hmod := s.visible_wrap_modEq (Number.integerPart x.toDouble)
  refine ⟨_, _, Shape.cast_ints (Shape.isInteger_of_range h) x, hstored, fun q => Number.integerPart_of_number?,
    Number.integerPart_of_not_isFinite, fun m => ⟨?_, ?_⟩⟩
  · rintro rfl
    exact ⟨hmem.1, hmem.2, hmod⟩
  · rintro ⟨hlow, hhigh, hm⟩
    exact Shape.eq_of_modEq_of_mem h ⟨hlow, hhigh⟩ hmem (hm.trans hmod.symm)

/-- The unsigned byte 200 is -56 in a signed lane as wide. The greatest unsigned word is rounded up to `2 ^ 32` as a
float, whether or not it is a Number first. -/
theorem cast_through_number_wraps :
    Shape.range? .int8x16 = some (-128, 127) ∧ (Scalar.uint8 200).int? = some 200 ∧
      Shape.cast .int8x16 (.uint8 200) = .int (-56) ∧
      (∀ m, m = Shape.visible .int8x16 (-56) ↔ -128 ≤ m ∧ m ≤ 127 ∧ m ≡ 200 [ZMOD 2 ^ 8]) ∧
      Shape.cast .float32x4 (.uint32 4294967295) = .float (.ofBits 0x4F800000) ∧
      (Lane.float (.ofBits 0x4F800000)).Same (Shape.cast .float32x4 (.double (Binary.ofInt 4294967295))) := by
  have hrange : Shape.range? .int8x16 = some (-128, 127) := by decide
  have hint : (Scalar.uint8 200).int? = some 200 := rfl
  have hcast : Shape.cast .int8x16 (.uint8 200) = .int (-56) := by decide +kernel
  have hfloat : Shape.cast .float32x4 (.uint32 4294967295) = .float (.ofBits 0x4F800000) := by decide +kernel
  obtain ⟨-, hexact, hlane⟩ := cast_through_number .int8x16 (.uint8 200)
  obtain ⟨hsame, -⟩ := cast_through_number .float32x4 (.uint32 4294967295)
  obtain ⟨n, t, hn, -, ht, -, hseen⟩ := hlane (-128) 127 hrange
  obtain rfl : n = -56 := Lane.int.inj (hn.symm.trans hcast)
  obtain rfl : t = 200 := (ht _ (Binary.denotes_iff.1 (hexact 200 hint))).trans (towardZero_intCast 200)
  rw [hfloat] at hsame
  exact ⟨hrange, hint, hcast, hseen, hfloat, hsame⟩

end Vector128
