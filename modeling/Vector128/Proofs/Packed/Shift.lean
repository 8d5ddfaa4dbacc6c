/-
Shifts are exact.

A shift to the left multiplies what is stored, and keeps the low bits of that; these are the low bits of what scripts see
times the power of two (`Shape.shifted_lanes`). A shift to the right divides what scripts see, so it needs no low bits cut
off. The amount is the integer part of a Number modulo the lane width, because the lane width divides `2 ^ 32`
(`Shape.amount_eq`); so an amount that is one lane width more shifts the same.

Back to the right, a product that was not cut gives the lane again. A product that was cut is a multiple of the power of
two still, but the wrong one (`Shape.shifted_back_iff`).
-/
import Vector128.Packed.Shift
import Vector128.Proofs.Packed.LaneIndex
import Vector128.Proofs.Packed.Range

namespace Vector128

open Outcome

theorem LaneWidth.bits_dvd (w : LaneWidth) : w.bits ∣ twoPow 32 := by
  cases w <;> decide

namespace Shape

variable {s : Shape} {low high m : Int} {v : Packed} {x y : Value} {a b : Double} {k : Nat}

/-- what a Number shifts lanes by -/
def amount (s : Shape) (n : Double) : Nat := Number.toUnsigned 32 n % s.width.bits

theorem shiftAmount_eq (hx : x.toNumber = .ok a) : s.shiftAmount x = .ok (s.amount a) := by
  rw [shiftAmount, hx]
  rfl

theorem amount_lt (s : Shape) (n : Double) : s.amount n < s.width.bits := Nat.mod_lt _ s.width.bits_pos

/-- **An amount is the integer part modulo the lane width.** -/
theorem amount_eq (s : Shape) (n : Double) : (s.amount n : Int) = Number.integerPart n % s.width.bits := by
  rw [amount, Int.natCast_mod, Number.toUnsigned_eq (by decide)]
  exact Int.emod_emod_of_dvd _ (Int.natCast_dvd_natCast.2 s.width.bits_dvd)

theorem amount_congr (h : Number.integerPart a ≡ Number.integerPart b [ZMOD s.width.bits]) : s.amount a = s.amount b := by
  have hcast : (s.amount a : Int) = s.amount b := by
    rw [amount_eq, amount_eq]
    exact h
  exact Int.ofNat_inj.1 hcast

theorem amount_ofNat (hk : k < s.width.bits) : s.amount (Binary.ofNat k) = k := by
  have hsmall : k < 2 ^ 53 := (hk.trans_le s.width.bits_le).trans (by decide)
  have hcast : (s.amount (Binary.ofNat k) : Int) = k := by
    rw [amount_eq, Number.integerPart_of_denotes (Number.denotes_ofNat hsmall)]
    exact Int.emod_eq_of_lt (Int.natCast_nonneg k) (Int.ofNat_lt.2 hk)
  exact Int.ofNat_inj.1 hcast

theorem shift_congr (h : s.shiftAmount x = s.shiftAmount y) :
    s.shiftLeft v x = s.shiftLeft v y ∧ s.shiftRight v x = s.shiftRight v y := by
  rw [shiftLeft, shiftRight, h]
  exact ⟨rfl, rfl⟩

/-! ## Lanes -/

/-- a shift answers on integer vectors, and cuts what it computes to the lane width -/
theorem shift_lanes (hs : s.isInteger = true) (hv : v.WellFormed) (hvs : v.shape = s) (hk : s.shiftAmount x = .ok k)
    (f : Nat → Int → Int) :
    ∃ u, (do let v ← v.expect s; let k ← s.shiftAmount x; v.mapInts (f k)) = .ok u ∧ u.WellFormed ∧ u.shape = s ∧
      ∀ i < s.laneCount, u.lane i = .int (s.width.wrap (f k (v.lane i).toInt)) := by
  subst hvs
  obtain ⟨u, hu⟩ := Packed.mapInts_exists hv hs (f k)
  refine ⟨u, ?_, Packed.mapInts_spec hv hu⟩
  apply bind_eq_ok.2
  exact ⟨v, Packed.expect_eq_ok.2 ⟨rfl, rfl⟩, bind_eq_ok.2 ⟨k, hk, hu⟩⟩

/-- A lane `x` and the lanes that it becomes by a shift of `k` bits, `l` to the left and `r` to the right. What is seen
of `l` is congruent to what is seen of `x` times `2 ^ k`, and what is seen of `r` is the quotient by `2 ^ k`, rounded
down. Both are in the range, the amount is one for words of 32 bits, and no product leaves the 64-bit integers. -/
structure Shifted (s : Shape) (low high : Int) (k : Nat) (x l r : Lane) : Prop where
  left : s.visible l.toInt ≡ s.visible x.toInt * 2 ^ k [ZMOD 2 ^ s.width.bits]
  right : s.visible r.toInt = ⌊(s.visible x.toInt : ℚ) / 2 ^ k⌋
  left_mem : low ≤ s.visible l.toInt ∧ s.visible l.toInt ≤ high
  right_mem : low ≤ s.visible r.toInt ∧ s.visible r.toInt ≤ high
  computed : k < 32 ∧ -2 ^ 63 ≤ x.toInt * 2 ^ k ∧ x.toInt * 2 ^ k < 2 ^ 63

theorem floor_div_twoPow (n : Int) (k : Nat) : ⌊(n : ℚ) / 2 ^ k⌋ = n / 2 ^ k := by
  have h := Rat.floor_intCast_div_natCast n (2 ^ k)
  push_cast at h
  exact h

theorem div_mem (h : s.range? = some (low, high)) {n : Int} (hn : low ≤ n ∧ n ≤ high) (k : Nat) :
    low ≤ n / 2 ^ k ∧ n / 2 ^ k ≤ high := by
  obtain ⟨hzero, hzero', -⟩ := range_width h
  have hpos : (0 : Int) < 2 ^ k := by positivity
  constructor
  · rw [Int.le_ediv_iff_mul_le hpos]
    calc low * 2 ^ k ≤ low * 1 := mul_le_mul_of_nonpos_left (one_le_pow₀ (by norm_num)) hzero
      _ = low := mul_one low
      _ ≤ n := hn.1
  · rcases le_or_gt 0 n with hnonneg | hneg
    · exact (Int.ediv_le_self _ hnonneg).trans hn.2
    · exact (Int.ediv_neg_of_neg_of_pos hneg hpos).le.trans hzero'

/-- **The lanes of shifted vectors**, where both shifts are by `k` bits. -/
theorem shifted_lanes (h : s.range? = some (low, high)) (hv : v.WellFormed) (hvs : v.shape = s)
    (hk : s.shiftAmount x = .ok k) (hbits : k < s.width.bits) :
    ∃ l r, s.shiftLeft v x = .ok l ∧ s.shiftRight v x = .ok r ∧ l.WellFormed ∧ r.WellFormed ∧ l.shape = s ∧ r.shape = s ∧
      ∀ i < s.laneCount, s.Shifted low high k (v.lane i) (l.lane i) (r.lane i) := by
  have hs := isInteger_of_range h
  obtain ⟨l, hl, hlwf, hls, hleft⟩ := shift_lanes hs hv hvs hk fun k n => n * twoPow k
  obtain ⟨r, hr, hrwf, hrs, hright⟩ := shift_lanes hs hv hvs hk fun k n => s.visible n / twoPow k
  refine ⟨l, r, hl, hr, hlwf, hrwf, hls, hrs, fun i hi => ?_⟩
  have hpow : (twoPow k : Int) = 2 ^ k := Nat.cast_pow 2 k
  have hmem := visible_lane_mem h hv hvs i
  have hk32 : k < 32 := hbits.trans_le s.width.bits_le
  refine ⟨?_, ?_, visible_lane_mem h hlwf hls i, visible_lane_mem h hrwf hrs i, hk32, ?_⟩
  · rw [hleft i hi, hpow]
    exact (s.visible_wrap_modEq _).trans ((s.visible_modEq _).symm.mul_right _)
  · rw [hright i hi, hpow, floor_div_twoPow]
    exact visible_wrap_of_mem h (div_mem h hmem k)
  · obtain ⟨hlow, hhigh⟩ := hv.toInt_bounds i
    have hpos : (0 : Int) < 2 ^ k := by positivity
    have hle : (2 : Int) ^ k ≤ 2 ^ 31 := pow_le_pow_right₀ (by norm_num) (by omega)
    constructor
    · calc (-2 ^ 63 : Int) ≤ -2 ^ 31 * 2 ^ 31 := by norm_num
        _ ≤ -2 ^ 31 * 2 ^ k := mul_le_mul_of_nonpos_left hle (by norm_num)
        _ ≤ (v.lane i).toInt * 2 ^ k := mul_le_mul_of_nonneg_right hlow hpos.le
    · calc (v.lane i).toInt * 2 ^ k < 2 ^ 31 * 2 ^ k := mul_lt_mul_of_pos_right hhigh hpos
        _ ≤ 2 ^ 31 * 2 ^ 31 := mul_le_mul_of_nonneg_left hle (by norm_num)
        _ ≤ 2 ^ 63 := by norm_num

/-- **A lane shifted to the left and back is the lane again exactly if its product fits.** What is seen of the product is
a multiple of the power of two, cut or not. -/
theorem shifted_back_iff (h : s.range? = some (low, high)) (hbits : k < s.width.bits) {n l : Int}
    (hl : low ≤ l ∧ l ≤ high) (hmod : l ≡ n * 2 ^ k [ZMOD 2 ^ s.width.bits]) :
    l / 2 ^ k = n ↔ low ≤ n * 2 ^ k ∧ n * 2 ^ k ≤ high := by
  have hpos : (2 : Int) ^ k ≠ 0 := by positivity
  constructor
  · intro hback
    have hdvd : (2 : Int) ^ k ∣ l := by
      have hpow : (2 : Int) ^ k ∣ 2 ^ s.width.bits := pow_dvd_pow 2 hbits.le
      exact (Int.ModEq.dvd_iff (hmod.of_dvd hpow)).2 (Dvd.intro_left n rfl)
    rw [← hback, Int.ediv_mul_cancel hdvd]
    exact hl
  · intro hn
    rw [eq_of_modEq_of_mem h hl hn hmod, Int.mul_ediv_cancel _ hpos]

/-- shifting there and back, on whole vectors -/
theorem shift_back (h : s.range? = some (low, high)) (hv : v.WellFormed) (hvs : v.shape = s)
    (hk : s.shiftAmount x = .ok k) (hbits : k < s.width.bits) {l : Packed} (hl : s.shiftLeft v x = .ok l) :
    ∃ back, s.shiftRight l x = .ok back ∧
      (back = v ↔ ∀ i < s.laneCount, low ≤ s.visible (v.lane i).toInt * 2 ^ k ∧
        s.visible (v.lane i).toInt * 2 ^ k ≤ high) := by
  obtain ⟨l', r, hl', -, hlwf, -, hls, -, hlane⟩ := shifted_lanes h hv hvs hk hbits
  obtain rfl : l' = l := Except.ok.inj (hl'.symm.trans hl)
  obtain ⟨_, back, -, hback, -, hbwf, -, hbs, hblane⟩ := shifted_lanes h hlwf hls hk hbits
  have hseen : ∀ i < s.laneCount, s.visible (back.lane i).toInt = s.visible (l'.lane i).toInt / 2 ^ k := by
    intro i hi
    rw [(hblane i hi).right, floor_div_twoPow]
  refine ⟨back, hback, ?_⟩
  constructor
  · rintro rfl i hi
    rw [← shifted_back_iff h hbits (hlane i hi).left_mem (hlane i hi).left]
    exact (hseen i hi).symm
  · intro hfits
    apply ext_visible (isInteger_of_range h) hbwf hv hbs hvs
    intro i hi
    rw [hseen i hi, shifted_back_iff h hbits (hlane i hi).left_mem (hlane i hi).left]
    exact hfits i hi

/-- integers that are one lane width apart are the same amount -/
theorem shiftAmount_add_bits (hx : x.toNumber = .ok a) (ha : a.Denotes m) (hy : y.toNumber = .ok b)
    (hb : b.Denotes (m + s.width.bits)) : s.shiftAmount x = s.shiftAmount y := by
  rw [shiftAmount_eq hx, shiftAmount_eq hy, amount_congr]
  rw [Number.integerPart_of_denotes ha, Number.integerPart_of_denotes hb]
  exact Int.ModEq.symm (Int.add_modEq_right)

end Shape

/-- **Shifts are exact for every amount.** Every value but a vector is an amount, by the low bits of the integer part of
its Number. A shift to the left and one to the right answer then on the vectors of an integer shape, each lane as
`Shape.Shifted` says, and back from the left gives the vector again exactly if every product fits. Integers that are one
lane width apart shift the same, as far as Numbers tell them from others. A number below the lane width is its own
amount, and a vector is none. -/
theorem shifts_exact {s : Shape} {low high : Int} (h : s.range? = some (low, high)) {v : Packed} (hv : v.WellFormed)
    (hvs : v.shape = s) :
    (∀ x : Value, (∀ w, x ≠ .vector w) → ∃ n k, x.toNumber = .ok n ∧
      k = Number.toUnsigned 32 n % s.width.bits ∧
      ∃ l r back, s.shiftLeft v x = .ok l ∧ s.shiftRight v x = .ok r ∧ s.shiftRight l x = .ok back ∧
        l.WellFormed ∧ r.WellFormed ∧ l.shape = s ∧ r.shape = s ∧
        (∀ i < s.laneCount, s.Shifted low high k (v.lane i) (l.lane i) (r.lane i)) ∧
        (back = v ↔ ∀ i < s.laneCount, low ≤ s.visible (v.lane i).toInt * 2 ^ k ∧
          s.visible (v.lane i).toInt * 2 ^ k ≤ high)) ∧
    (∀ m : Int, m.natAbs + s.width.bits ≤ 2 ^ 53 →
      (Binary.ofInt m : Double).Denotes m ∧ (Binary.ofInt (m + s.width.bits) : Double).Denotes (m + s.width.bits) ∧
      ∀ x y a b, x.toNumber = .ok a → a.Denotes m → y.toNumber = .ok b → b.Denotes (m + s.width.bits) →
        s.shiftLeft v x = s.shiftLeft v y ∧ s.shiftRight v x = s.shiftRight v y) ∧
    (∀ k < s.width.bits, s.shiftAmount (.number (Binary.ofNat k)) = .ok k) ∧
    ∀ w, s.shiftLeft v (.vector w) = refuse .vectorAsNumber ∧ s.shiftRight v (.vector w) = refuse .vectorAsNumber ∧
      Cause.vectorAsNumber.kind = .typeError := by
  refine ⟨?_, ?_, ?_, ?_⟩
  · intro x hx
    obtain ⟨n, hn⟩ := exists_toNumber hx
    have hk := Shape.shiftAmount_eq (s := s) hn
    have hbits := s.amount_lt n
    obtain ⟨l, r, hl, hr, hlwf, hrwf, hls, hrs, hlane⟩ := Shape.shifted_lanes h hv hvs hk hbits
    obtain ⟨back, hback, hiff⟩ := Shape.shift_back h hv hvs hk hbits hl
    exact ⟨n, s.amount n, hn, rfl, l, r, back, hl, hr, hback, hlwf, hrwf, hls, hrs, hlane, hiff⟩
  · intro m hm
    refine ⟨Number.denotes_ofInt (by omega), Number.denotes_ofInt (by omega), ?_⟩
    intro x y a b hx ha hy hb
    exact Shape.shift_congr (Shape.shiftAmount_add_bits hx ha hy hb)
  · intro k hk
    rw [Shape.shiftAmount_eq rfl, Shape.amount_ofNat hk]
  · intro w
    subst hvs
    have hexpect : v.expect v.shape = .ok v := Packed.expect_eq_ok.2 ⟨rfl, rfl⟩
    refine ⟨?_, ?_, rfl⟩
    · rw [Shape.shiftLeft, hexpect]
      rfl
    · rw [Shape.shiftRight, hexpect]
      rfl

/-- Unsigned lanes of 8 bits, shifted by the text of -6, which is 2: to the right the leading bits become zeros, and the
way back from the left loses those that were cut. -/
theorem shifts_exact_negative :
    let v : Packed := ⟨.uint8x16, .ints #v[-128, -1, 3, 63, 64, 0, 0, 0, 0, 0, 0, 0, 0, 0, 0, 0]⟩
    let l : Packed := ⟨.uint8x16, .ints #v[0, -4, 12, -4, 0, 0, 0, 0, 0, 0, 0, 0, 0, 0, 0, 0]⟩
    let r : Packed := ⟨.uint8x16, .ints #v[32, 63, 0, 15, 16, 0, 0, 0, 0, 0, 0, 0, 0, 0, 0, 0]⟩
    v.WellFormed ∧ Shape.range? .uint8x16 = some (0, 255) ∧
      Shape.shiftLeft .uint8x16 v (.string "-6") = .ok l ∧ Shape.shiftRight .uint8x16 v (.string "-6") = .ok r ∧
      (∀ i < Shape.laneCount .uint8x16, Shape.Shifted .uint8x16 0 255 2 (v.lane i) (l.lane i) (r.lane i)) ∧
      (∃ back, Shape.shiftRight .uint8x16 l (.string "-6") = .ok back ∧ back ≠ v) ∧
      (Binary.ofInt (-6) : Double).Denotes (-6) ∧
      Shape.shiftLeft .uint8x16 v (.number (Binary.ofInt (-6))) =
        Shape.shiftLeft .uint8x16 v (.number (Binary.ofInt 2)) ∧
      Shape.shiftAmount .uint8x16 (.number (Binary.ofNat 7)) = .ok 7 := by
  intro v l r
  have hv : v.WellFormed := by decide
  have hrange : Shape.range? .uint8x16 = some (0, 255) := by decide
  have hl : Shape.shiftLeft .uint8x16 v (.string "-6") = .ok l := by decide +kernel
  have hr : Shape.shiftRight .uint8x16 v (.string "-6") = .ok r := by decide +kernel
  have hnumber : Value.toNumber (.string "-6") = .ok (Binary.ofInt (-6)) := by decide +kernel
  have hamount : Number.toUnsigned 32 (Binary.ofInt (-6)) % (Shape.width .uint8x16).bits = 2 := by decide +kernel
  obtain ⟨hshift, hapart, hown, -⟩ := shifts_exact hrange hv rfl
  obtain ⟨n, k, hn, hk, l', r', back, hl', hr', hback, -, -, -, -, hlane, hiff⟩ := hshift (.string "-6") (by simp)
  obtain rfl : l' = l := Except.ok.inj (hl'.symm.trans hl)
  obtain rfl : r' = r := Except.ok.inj (hr'.symm.trans hr)
  obtain rfl : n = Binary.ofInt (-6) := Except.ok.inj (hn.symm.trans hnumber)
  obtain rfl : k = 2 := hk.trans hamount
  obtain ⟨hdenotes, hnext, hsame⟩ := hapart (-6) (by decide)
  have hsum : (-6 : Int) + (Shape.width .uint8x16).bits = 2 := by decide
  rw [hsum] at hnext hsame
  refine ⟨hv, hrange, hl, hr, hlane, ⟨back, hback, ?_⟩, hdenotes, ?_, hown 7 (by decide)⟩
  · rw [ne_eq, hiff]
    intro hfits
    exact absurd (hfits 0 (by decide)).2 (by decide +kernel)
  · exact (hsame (.number (Binary.ofInt (-6))) (.number (Binary.ofInt 2)) _ _ rfl hdenotes rfl hnext).1

end Vector128
