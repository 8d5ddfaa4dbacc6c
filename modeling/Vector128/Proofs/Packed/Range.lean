/-
The range of an integer shape.

A range has as many integers as a lane has states (`Shape.range_width`), so an integer of the range is what scripts see
of the lane that has its low bits (`Shape.visible_wrap_of_mem`). Any integer is congruent to what they see of it
(`Shape.visible_wrap_modEq`), and lanes that show the same are the same (`Shape.eq_of_visible_eq`).
-/
import Vector128.Proofs.Packed.Words

namespace Vector128.Shape

variable {s : Shape} {low high n m : Int} {v w : Packed}

theorem range_of_isInteger (hs : s.isInteger = true) : ∃ low high, s.range? = some (low, high) := by
  rcases kind_of_isInteger hs with hk | hk
  · exact ⟨_, _, by rw [range?, hk]⟩
  · exact ⟨_, _, by rw [range?, hk]⟩

theorem isInteger_of_range (h : s.range? = some (low, high)) : s.isInteger = true := by
  cases s <;> cases h <;> rfl

/-- a range reaches from zero or below to zero or above, and it has as many integers as a lane has states -/
theorem range_width (h : s.range? = some (low, high)) :
    low ≤ 0 ∧ 0 ≤ high ∧ high - low + 1 = 2 ^ s.width.bits := by
  cases s <;> cases h <;> decide

theorem visible_mem (h : s.range? = some (low, high)) (hn : s.width.wrap n = n) :
    low ≤ s.visible n ∧ s.visible n ≤ high := by
  obtain ⟨low', high', h', hlow, hhigh⟩ := visible_mem_range (isInteger_of_range h) n
  obtain ⟨rfl, rfl⟩ : low' = low ∧ high' = high := by
    rw [h, Option.some.injEq, Prod.mk.injEq] at h'
    exact ⟨h'.1.symm, h'.2.symm⟩
  rw [hn] at hlow hhigh
  exact ⟨hlow, hhigh⟩

theorem natAbs_visible_lt (hs : s.isInteger = true) (hn : s.width.wrap n = n) : (s.visible n).natAbs < 2 ^ 32 := by
  obtain ⟨low, high, h⟩ := range_of_isInteger hs
  obtain ⟨hlow, hhigh, hwidth⟩ := range_width h
  have hmem := visible_mem h hn
  have hbits : (2 : Int) ^ s.width.bits ≤ 2 ^ 32 := pow_le_pow_right₀ (by norm_num) s.width.bits_le
  omega

theorem visible_lane_mem (h : s.range? = some (low, high)) (hv : v.WellFormed) (hvs : v.shape = s) (i : Nat) :
    low ≤ s.visible (v.lane i).toInt ∧ s.visible (v.lane i).toInt ≤ high :=
  visible_mem h (hvs ▸ hv.wrap_lane i)

/-- what scripts see of a lane is congruent to what is stored -/
theorem visible_modEq (s : Shape) (n : Int) : s.visible n ≡ n [ZMOD 2 ^ s.width.bits] :=
  ofInt_eq_ofInt_iff.1 (s.ofInt_visible n)

/-- an integer is congruent to what scripts see of its low bits -/
theorem visible_wrap_modEq (s : Shape) (n : Int) : s.visible (s.width.wrap n) ≡ n [ZMOD 2 ^ s.width.bits] := by
  rw [← ofInt_eq_ofInt_iff, s.ofInt_visible, LaneWidth.wrap_eq_toInt, BitVec.ofInt_toInt]

/-- congruent integers have the same low bits -/
theorem wrap_congr (h : n ≡ m [ZMOD 2 ^ s.width.bits]) : s.width.wrap n = s.width.wrap m := by
  rw [LaneWidth.wrap_eq_toInt, LaneWidth.wrap_eq_toInt, ofInt_eq_ofInt_iff.2 h]

theorem eq_of_modEq_of_mem (h : s.range? = some (low, high)) (hn : low ≤ n ∧ n ≤ high) (hm : low ≤ m ∧ m ≤ high)
    (hmod : n ≡ m [ZMOD 2 ^ s.width.bits]) : n = m := by
  obtain ⟨-, -, hwidth⟩ := range_width h
  have hdist : |m - n| < 2 ^ s.width.bits := by
    rw [abs_lt]
    omega
  have hzero := Int.eq_zero_of_abs_lt_dvd hmod.dvd hdist
  omega

/-- **An integer of the range is what scripts see of its low bits.** -/
theorem visible_wrap_of_mem (h : s.range? = some (low, high)) (hn : low ≤ n ∧ n ≤ high) :
    s.visible (s.width.wrap n) = n :=
  eq_of_modEq_of_mem h (visible_mem h Int.bmod_bmod) hn (s.visible_wrap_modEq n)

/-- lanes that show the same are the same -/
theorem eq_of_visible_eq (hn : s.width.wrap n = n) (hm : s.width.wrap m = m) (h : s.visible n = s.visible m) : n = m := by
  rw [← hn, ← hm]
  exact wrap_congr ((s.visible_modEq n).symm.trans (h ▸ s.visible_modEq m))

theorem lane_eq_of_visible (hs : s.isInteger = true) (hv : v.WellFormed) (hw : w.WellFormed) (hvs : v.shape = s)
    (hws : w.shape = s) {i : Nat} (h : s.visible (v.lane i).toInt = s.visible (w.lane i).toInt) : v.lane i = w.lane i := by
  obtain ⟨n, hn⟩ := hv.lane_int (hvs ▸ hs) i
  obtain ⟨m, hm⟩ := hw.lane_int (hws ▸ hs) i
  have hnm := eq_of_visible_eq (hvs ▸ hv.wrap_lane i) (hws ▸ hw.wrap_lane i) h
  rw [hn, hm] at hnm ⊢
  exact congrArg Lane.int hnm

/-- integer vectors whose lanes show the same are the same -/
theorem ext_visible (hs : s.isInteger = true) (hv : v.WellFormed) (hw : w.WellFormed) (hvs : v.shape = s)
    (hws : w.shape = s) (h : ∀ i < s.laneCount, s.visible (v.lane i).toInt = s.visible (w.lane i).toInt) : v = w :=
  hv.ext hw (hvs.trans hws.symm) fun i hi => lane_eq_of_visible hs hv hw hvs hws (h i (hvs ▸ hi))

end Vector128.Shape
