/-
Floats and integers that are checked on their way to an integer lane.

A float that is checked loses its fraction, and what is left has to be in the range of the lane. A Number that is
coerced loses its fraction too, and keeps the low bits of what is left (`Shape.coerced`). The two differ exactly where
bits are lost: an integer is what its low bits show exactly if it is in the range (`Shape.visible_wrap_eq_self_iff`),
and a float is the same number as a Number. So what passes the check is what coercion gives, and a finite float fails
it exactly if coercion changes it. On numbers the check is an open interval, one wider than the range at both ends
(`towardZero_mem_iff`).

`truncation_restricts_coercion` is the law for floats and integers, at every integer shape. What it takes for granted is
the cast that the check makes: it has to be lawful (`FloatCast.Lawful`).
-/
import Vector128.Packed.Convert
import Vector128.Proofs.Number.LowBits
import Vector128.Proofs.Packed.Range

namespace Vector128

/-- **A number without its fraction is in a range around zero** exactly if the number is less than one outside. -/
theorem towardZero_mem_iff {low high : Int} (hlow : low ≤ 0) (hhigh : 0 ≤ high) (q : ℚ) :
    low ≤ towardZero q ∧ towardZero q ≤ high ↔ (low - 1 : ℚ) < q ∧ q < high + 1 := by
  unfold towardZero
  split_ifs with hq
  · have hfloor : 0 ≤ ⌊q⌋ := Int.floor_nonneg.2 hq
    have hbelow : (low - 1 : ℚ) < q := by
      have : (low : ℚ) ≤ 0 := Int.cast_nonpos.2 hlow
      linarith
    rw [and_iff_right (hlow.trans hfloor), and_iff_right hbelow, ← Int.lt_add_one_iff, Int.floor_lt]
    push_cast
    rfl
  · have hceil : ⌈q⌉ ≤ 0 := Int.ceil_le.2 (by push_cast; linarith)
    have habove : q < high + 1 := by
      have : (0 : ℚ) ≤ high := Int.cast_nonneg hhigh
      linarith
    rw [and_iff_left (hceil.trans hhigh), and_iff_left habove, ← Int.sub_one_lt_iff, Int.lt_ceil]
    push_cast
    rfl

namespace Shape

variable {low high n : Int} {x : Single} {q : ℚ}

/-! ## Coercion -/

/-- the integer that a Number is coerced to: low bits of its integer part, with the sign that the shape gives them -/
def coerced (s : Shape) (x : Double) : Int :=
  if s.isUnsigned then Number.toUnsigned s.width.bits x else Number.toSigned s.width.bits x

/-- a coerced Number is what scripts see of the low bits of its integer part -/
theorem coerced_eq (s : Shape) (x : Double) : s.coerced x = s.visible (s.width.wrap (Number.integerPart x)) := by
  have hbits : s.width.bits ≤ 52 := s.width.bits_le.trans (by decide)
  have hmodulus : (twoPow s.width.bits : Int) = 2 ^ s.width.bits := by
    rw [show twoPow s.width.bits = 2 ^ s.width.bits from rfl]
    push_cast
    rfl
  have hpos : (0 : Int) < 2 ^ s.width.bits := by positivity
  unfold coerced visible
  split_ifs
  · rw [Number.toUnsigned_eq hbits, LaneWidth.zeroExtend, LaneWidth.wrap, Int.bmod_emod, hmodulus,
      Int.toNat_of_nonneg (Int.emod_nonneg _ hpos.ne')]
  · rw [Number.toSigned_eq hbits]
    rfl

/-- **An integer is what its low bits show exactly if it is in the range.** -/
theorem visible_wrap_eq_self_iff {s : Shape} (h : s.range? = some (low, high)) :
    s.visible (s.width.wrap n) = n ↔ low ≤ n ∧ n ≤ high := by
  constructor
  · intro heq
    rw [← heq]
    exact visible_mem h Int.bmod_bmod
  · intro hmem
    exact visible_wrap_of_mem h hmem

/-- a float that is a number is coerced to what the low bits of that number show -/
theorem coerced_convert (s : Shape) (hq : x.number? = some (.ofRat q)) :
    s.coerced x.convert = s.visible (s.width.wrap (towardZero q)) := by
  have hwide : (x.convert : Double).number? = some (.ofRat q) :=
    (Binary.number?_convert Format.single_embeds_double (by decide) (by decide) (by decide) x).trans hq
  rw [coerced_eq, Number.integerPart_of_number? hwide]

end Shape

/-! ## Checks -/

section Checks

variable {cast : FloatCast} {s : Shape} {low high n m : Int} {x : Single} {q : ℚ}

theorem narrow_eq_ok_iff : narrow n low high = .ok m ↔ n = m ∧ low ≤ n ∧ n ≤ high := by
  unfold narrow
  split_ifs with hmem
  · rw [Except.ok.injEq, and_iff_left hmem]
  · exact iff_of_false nofun fun h => hmem h.2

theorem narrow_eq_error_iff {fault : ConversionFault} :
    narrow n low high = .error fault ↔ fault = .outOfRange ∧ ¬ (low ≤ n ∧ n ≤ high) := by
  unfold narrow
  split_ifs with hmem
  · exact iff_of_false nofun fun h => h.2 hmem
  · rw [Except.error.injEq, and_iff_left hmem, eq_comm]

/-- a lawful cast has no choice: it is the integer part, where that is in the range -/
theorem FloatCast.Lawful.int?_eq (hcast : cast.Lawful) (h : s.range? = some (low, high)) (x : Single) :
    cast.int? low high x = x.truncate?.filter fun n => low ≤ n ∧ n ≤ high := by
  ext n
  rw [hcast s low high h, Option.filter_eq_some_iff, decide_eq_true_eq]

/-- a float that is a number is checked without its fraction -/
theorem narrowFloat_of_number? (hcast : cast.Lawful) (h : s.range? = some (low, high))
    (hq : x.number? = some (.ofRat q)) : narrowFloat cast x low high = narrow (towardZero q) low high := by
  have hnan := Binary.isNaN_of_isFinite (Binary.number?_eq_ofRat_iff.1 hq).1
  have htruncate : x.truncate? = some (towardZero q) := Binary.truncate?_eq_some_iff.2 ⟨q, hq, rfl⟩
  simp only [narrowFloat, narrow, hnan, hcast.int?_eq h, htruncate, Option.filter_some, decide_eq_true_eq,
    Bool.false_eq_true, if_false]
  split_ifs <;> rfl

theorem narrowFloat_of_isNaN (hx : x.isNaN = true) : narrowFloat cast x low high = .error .notANumber := if_pos hx

theorem narrowFloat_of_isInfinite (hcast : cast.Lawful) (h : s.range? = some (low, high)) (hx : x.isInfinite = true) :
    narrowFloat cast x low high = .error .outOfRange := by
  have hnan : x.isNaN = false := by
    rw [Binary.eq_infinity hx]
    exact Binary.isNaN_infinity _
  have hfinite : x.isFinite = false := by
    rw [Bool.eq_false_iff]
    intro hfinite
    rw [Binary.isInfinite_of_isFinite hfinite] at hx
    cases hx
  simp only [narrowFloat, hnan, hcast.int?_eq h, Binary.truncate?, hfinite, Bool.false_eq_true, if_false,
    Option.filter_none]

theorem float_cases (x : Single) : x.isNaN = true ∨ x.isInfinite = true ∨ ∃ q, x.number? = some (.ofRat q) := by
  cases hnan : x.isNaN with
  | true => exact Or.inl rfl
  | false =>
    cases hinf : x.isInfinite with
    | true => exact Or.inr (Or.inl rfl)
    | false => exact Or.inr (Or.inr ⟨_, Binary.number?_of_isFinite (x.isFinite_of_not hnan hinf)⟩)

/-- **A float passes exactly if it is a number, and in the range without its fraction.** -/
theorem narrowFloat_eq_ok_iff (hcast : cast.Lawful) (h : s.range? = some (low, high)) :
    narrowFloat cast x low high = .ok n ↔
      ∃ q, x.number? = some (.ofRat q) ∧ towardZero q = n ∧ low ≤ n ∧ n ≤ high := by
  constructor
  · intro hok
    rcases float_cases x with hnan | hinf | ⟨q, hq⟩
    · cases (narrowFloat_of_isNaN hnan).symm.trans hok
    · cases (narrowFloat_of_isInfinite hcast h hinf).symm.trans hok
    · rw [narrowFloat_of_number? hcast h hq, narrow_eq_ok_iff] at hok
      obtain ⟨rfl, hmem⟩ := hok
      exact ⟨q, hq, rfl, hmem⟩
  · rintro ⟨q, hq, rfl, hmem⟩
    rw [narrowFloat_of_number? hcast h hq, narrow_eq_ok_iff]
    exact ⟨rfl, hmem⟩

theorem narrowFloat_eq_notANumber_iff : narrowFloat cast x low high = .error .notANumber ↔ x.isNaN = true := by
  refine ⟨fun herror => ?_, narrowFloat_of_isNaN⟩
  by_contra hnan
  rw [narrowFloat, if_neg hnan] at herror
  split at herror
  · cases herror
  · cases herror

end Checks

namespace Shape

variable {cast : FloatCast} {s : Shape} {low high : Int}

/-- What a float becomes that is checked on its way to a lane with a range, and what it is coerced to as a Number. -/
structure Truncates (cast : FloatCast) (s : Shape) (low high : Int) (x : Single) : Prop where
  notANumber_iff : narrowFloat cast x low high = .error .notANumber ↔ x.isNaN = true
  ok_iff : ∀ n, narrowFloat cast x low high = .ok n ↔
    ∃ q, x.number? = some (.ofRat q) ∧ towardZero q = n ∧ low ≤ n ∧ n ≤ high
  /-- what passes is a number of an open interval -/
  succeeds_iff : (∃ n, narrowFloat cast x low high = .ok n) ↔
    ∃ q : ℚ, x.number? = some (.ofRat q) ∧ (low - 1 : ℚ) < q ∧ q < high + 1
  coerced : ∀ n, narrowFloat cast x low high = .ok n → s.coerced x.convert = n
  infinite : x.isInfinite = true → narrowFloat cast x low high = .error .outOfRange
  otherwise : x.isNaN = false → (∀ n, narrowFloat cast x low high ≠ .ok n) →
    narrowFloat cast x low high = .error .outOfRange
  /-- a number is out of range exactly if coercion changes its integer part -/
  outOfRange_iff : ∀ q, x.number? = some (.ofRat q) →
    (narrowFloat cast x low high = .error .outOfRange ↔ s.coerced x.convert ≠ towardZero q)

theorem truncates (hcast : cast.Lawful) (h : s.range? = some (low, high)) (x : Single) :
    s.Truncates cast low high x where
  notANumber_iff := narrowFloat_eq_notANumber_iff
  ok_iff n := narrowFloat_eq_ok_iff hcast h
  succeeds_iff := by
    obtain ⟨hlow, hhigh, -⟩ := range_width h
    constructor
    · rintro ⟨n, hn⟩
      obtain ⟨q, hq, rfl, hmem⟩ := (narrowFloat_eq_ok_iff hcast h).1 hn
      exact ⟨q, hq, (towardZero_mem_iff hlow hhigh q).1 hmem⟩
    · rintro ⟨q, hq, hopen⟩
      exact ⟨_, (narrowFloat_eq_ok_iff hcast h).2 ⟨q, hq, rfl, (towardZero_mem_iff hlow hhigh q).2 hopen⟩⟩
  coerced := by
    intro n hn
    obtain ⟨q, hq, rfl, hmem⟩ := (narrowFloat_eq_ok_iff hcast h).1 hn
    rw [coerced_convert s hq, (visible_wrap_eq_self_iff h).2 hmem]
  infinite := narrowFloat_of_isInfinite hcast h
  otherwise := by
    intro hnan hnone
    cases hresult : narrowFloat cast x low high with
    | ok n => exact absurd hresult (hnone n)
    | error fault =>
      cases fault with
      | notANumber =>
        rw [narrowFloat_eq_notANumber_iff.1 hresult] at hnan
        cases hnan
      | outOfRange => rfl
  outOfRange_iff := by
    intro q hq
    rw [narrowFloat_of_number? hcast h hq, narrow_eq_error_iff, coerced_convert s hq, ne_eq, visible_wrap_eq_self_iff h,
      and_iff_right rfl]

end Shape

/-- **Checked truncation is coercion where nothing wraps around.** A float is refused as no number exactly if it is a
NaN. It passes exactly if it is finite and in the range without its fraction, and then as that integer, which is what
it is coerced to as a Number. All else is out of range, the infinities too, and a finite float is so exactly if
coercion changes its integer part. An integer passes exactly if it is in the range, and then as itself. Of the cast to
integers the law is assumed, and no more. -/
theorem truncation_restricts_coercion {cast : FloatCast} (hcast : cast.Lawful) {s : Shape} {low high : Int}
    (h : s.range? = some (low, high)) :
    (∀ x : Single, s.Truncates cast low high x) ∧
    ∀ n : Int, (∀ m, narrow n low high = .ok m ↔ m = n ∧ low ≤ n ∧ n ≤ high) ∧
      (¬ (low ≤ n ∧ n ≤ high) → narrow n low high = .error .outOfRange) := by
  refine ⟨Shape.truncates hcast h, fun n => ⟨fun m => ?_, fun hout => ?_⟩⟩
  · rw [narrow_eq_ok_iff, eq_comm]
  · exact narrow_eq_error_iff.2 ⟨rfl, hout⟩

/-- The float before 256 and the one after -1 pass as bytes, and -1 does not, which is coerced to 255; `-2 ^ 31` is a
signed word, and `2 ^ 31` is none. -/
theorem truncation_restricts_coercion_ends :
    let cast := FloatCast.truncating
    let below : Single := .ofBits 0x437FFFFF
    let above : Single := .ofBits 0xBF7FFFFF
    let least : Single := .ofBits 0xCF000000
    let beyond : Single := .ofBits 0x4F000000
    cast.Lawful ∧ Shape.range? .uint8x16 = some (0, 255) ∧
      Shape.range? .int32x4 = some (-2147483648, 2147483647) ∧
      narrowFloat cast below 0 255 = .ok 255 ∧ Shape.coerced .uint8x16 below.convert = 255 ∧
      narrowFloat cast above 0 255 = .ok 0 ∧ Shape.coerced .uint8x16 above.convert = 0 ∧
      narrow (-1) 0 255 = .error .outOfRange ∧
      narrowFloat cast least (-2147483648) 2147483647 = .ok (-2147483648) ∧
      Shape.coerced .int32x4 least.convert = -2147483648 ∧
      narrowFloat cast beyond (-2147483648) 2147483647 = .error .outOfRange ∧
      Shape.coerced .int32x4 beyond.convert ≠ 2147483648 := by
  intro cast below above least beyond
  have hbyte : Shape.range? .uint8x16 = some (0, 255) := by decide
  have hword : Shape.range? .int32x4 = some (-2147483648, 2147483647) := by decide
  obtain ⟨hbytes, hintegers⟩ := truncation_restricts_coercion FloatCast.lawful_truncating hbyte
  obtain ⟨hwords, -⟩ := truncation_restricts_coercion FloatCast.lawful_truncating hword
  have hbelow : narrowFloat cast below 0 255 = .ok 255 := by decide +kernel
  have habove : narrowFloat cast above 0 255 = .ok 0 := by decide +kernel
  have hleast : narrowFloat cast least (-2147483648) 2147483647 = .ok (-2147483648) := by decide +kernel
  have hbeyond : narrowFloat cast beyond (-2147483648) 2147483647 = .error .outOfRange := by decide +kernel
  have hnumber : beyond.number? = some (.ofRat (2147483648 : Int)) :=
    Binary.denotes_iff.1 ⟨by decide +kernel, by decide +kernel⟩
  have hcoerced := ((hwords beyond).outOfRange_iff _ hnumber).1 hbeyond
  rw [towardZero_intCast] at hcoerced
  exact ⟨FloatCast.lawful_truncating, hbyte, hword, hbelow, (hbytes below).coerced _ hbelow, habove,
    (hbytes above).coerced _ habove, (hintegers (-1)).2 (by decide), hleast, (hwords least).coerced _ hleast, hbeyond,
    hcoerced⟩

end Vector128
