/-
Saturating sums and differences are exact results, clamped.

The clamped result is in the range, so scripts see it as it is, also where it is stored with another sign. The operation
that wraps around keeps the low bits of the same exact result, and that is less than the size of the range away from the
range. So the two results are one exactly if nothing was clamped (`Shape.saturates_of_near`).
-/
import Vector128.Proofs.Packed.Range

namespace Vector128

open Outcome

theorem clamp_eq {n low high : Int} (h : low ≤ high) : clamp n low high = min (max n low) high := by
  unfold clamp
  omega

namespace Shape

variable {s : Shape} {low high n m : Int} {v w : Packed}

/-- A lane `l` of a saturating operation and the same lane `l'` of the operation that wraps around, beside the exact
result `n`: scripts see the exact result clamped to the range, the two lanes are one exactly if it was in the range, and
it was computed without leaving the 64-bit integers. -/
structure Saturates (s : Shape) (low high n : Int) (l l' : Lane) : Prop where
  clamped : s.visible l.toInt = min (max n low) high
  eq_iff : l = l' ↔ low ≤ n ∧ n ≤ high
  computed : -2 ^ 63 ≤ n ∧ n < 2 ^ 63

theorem clampLane_eq (h : s.range? = some (low, high)) (n : Int) : s.clampLane n = min (max n low) high := by
  obtain ⟨hlow, hhigh, -⟩ := range_width h
  rw [clampLane, h]
  exact clamp_eq (hlow.trans hhigh)

/-- **A result near the range is clamped or the same**, where `m` has the low bits of it. -/
theorem saturates_of_near (h : s.range? = some (low, high)) (hmod : m ≡ n [ZMOD 2 ^ s.width.bits])
    (hlow : low - 2 ^ s.width.bits < n) (hhigh : n < high + 2 ^ s.width.bits) :
    s.Saturates low high n (.int (s.width.wrap (s.clampLane n))) (.int (s.width.wrap m)) := by
  obtain ⟨hzero, hzero', hwidth⟩ := range_width h
  have hbits : (2 : Int) ^ s.width.bits ≤ 2 ^ 32 := pow_le_pow_right₀ (by norm_num) s.width.bits_le
  have hmem : low ≤ s.clampLane n ∧ s.clampLane n ≤ high := by
    rw [clampLane_eq h]
    omega
  refine ⟨?_, ?_, by omega⟩
  · rw [Lane.toInt, visible_wrap_of_mem h hmem, clampLane_eq h]
  · constructor
    · intro hl
      -- the clamped result has the low bits of the exact one, and is too near to it to be another
      have hsame : s.clampLane n ≡ n [ZMOD 2 ^ s.width.bits] := by
        rw [← visible_wrap_of_mem h hmem, Lane.int.inj hl]
        exact (s.visible_wrap_modEq m).trans hmod
      have hdist : |n - s.clampLane n| < 2 ^ s.width.bits := by
        rw [abs_lt, clampLane_eq h]
        omega
      have := Int.eq_zero_of_abs_lt_dvd hsame.dvd hdist
      omega
    · intro hn
      rw [clampLane_eq h, max_eq_left hn.1, min_eq_left hn.2, wrap_congr hmod]

/-- an operation and its saturating variant, where the exact result goes by low bits and stays near the range -/
theorem binary_saturates (h : s.range? = some (low, high)) (hv : v.WellFormed) (hw : w.WellFormed) (hvs : v.shape = s)
    (hws : w.shape = s) {op saturating : BinaryOp} {f : Int → Int → Int} (hop : op.onInts s = some f)
    (hsaturating : saturating.onInts s = some fun x y => s.clampLane (f (s.visible x) (s.visible y)))
    (hmod : ∀ x y, f x y ≡ f (s.visible x) (s.visible y) [ZMOD 2 ^ s.width.bits])
    (hnear : ∀ x y, low ≤ x ∧ x ≤ high → low ≤ y ∧ y ≤ high →
      low - 2 ^ s.width.bits < f x y ∧ f x y < high + 2 ^ s.width.bits) :
    ∃ u u', s.binary saturating v w = .ok u ∧ s.binary op v w = .ok u' ∧ u.shape = s ∧ u'.shape = s ∧
      ∀ i < s.laneCount, s.Saturates low high (f (s.visible (v.lane i).toInt) (s.visible (w.lane i).toInt))
        (u.lane i) (u'.lane i) := by
  have hs := isInteger_of_range h
  obtain ⟨u, hu, -, hus, hlane⟩ := binary_ints hs hv hw hvs hws saturating hsaturating
  obtain ⟨u', hu', -, hus', hlane'⟩ := binary_ints hs hv hw hvs hws op hop
  refine ⟨u, u', hu, hu', hus, hus', fun i hi => ?_⟩
  obtain ⟨hlow, hhigh⟩ := hnear _ _ (visible_lane_mem h hv hvs i) (visible_lane_mem h hw hws i)
  rw [hlane i hi, hlane' i hi]
  exact saturates_of_near h (hmod _ _) hlow hhigh

end Shape

/-- **Saturating arithmetic clamps the exact result.** On vectors of an integer shape, scripts see in each lane of a
saturating sum or difference the sum or difference of what they see of the operands, clamped to the range of the shape.
It is the lane of the sum or difference that wraps around exactly if nothing was clamped. -/
theorem saturation_clamps {s : Shape} {low high : Int} (h : s.range? = some (low, high)) {v w : Packed}
    (hv : v.WellFormed) (hw : w.WellFormed) (hvs : v.shape = s) (hws : w.shape = s) :
    (∃ u u', s.binary .addSaturate v w = .ok u ∧ s.binary .add v w = .ok u' ∧ u.shape = s ∧ u'.shape = s ∧
      ∀ i < s.laneCount, s.Saturates low high (s.visible (v.lane i).toInt + s.visible (w.lane i).toInt)
        (u.lane i) (u'.lane i)) ∧
    ∃ u u', s.binary .subSaturate v w = .ok u ∧ s.binary .sub v w = .ok u' ∧ u.shape = s ∧ u'.shape = s ∧
      ∀ i < s.laneCount, s.Saturates low high (s.visible (v.lane i).toInt - s.visible (w.lane i).toInt)
        (u.lane i) (u'.lane i) := by
  obtain ⟨hzero, hzero', hwidth⟩ := Shape.range_width h
  constructor
  · refine Shape.binary_saturates h hv hw hvs hws rfl rfl ?_ ?_
    · intro x y
      exact ((s.visible_modEq x).add (s.visible_modEq y)).symm
    · intro x y hx hy
      omega
  · refine Shape.binary_saturates h hv hw hvs hws rfl rfl ?_ ?_
    · intro x y
      exact ((s.visible_modEq x).sub (s.visible_modEq y)).symm
    · intro x y hx hy
      omega

/-- Of unsigned lanes a sum may be clamped that is stored as a negative one, and one may be stored so that was not; a
difference is clamped at zero. -/
theorem saturation_clamps_unsigned :
    let v : Packed := ⟨.uint32x4, .ints #v[-1, -2147483648, 5, 0, 0, 0, 0, 0, 0, 0, 0, 0, 0, 0, 0, 0]⟩
    let w : Packed := ⟨.uint32x4, .ints #v[2, 2147483647, 10, 0, 0, 0, 0, 0, 0, 0, 0, 0, 0, 0, 0, 0]⟩
    let sum : Packed := ⟨.uint32x4, .ints #v[-1, -1, 15, 0, 0, 0, 0, 0, 0, 0, 0, 0, 0, 0, 0, 0]⟩
    let wrapped : Packed := ⟨.uint32x4, .ints #v[1, -1, 15, 0, 0, 0, 0, 0, 0, 0, 0, 0, 0, 0, 0, 0]⟩
    v.WellFormed ∧ w.WellFormed ∧ Shape.range? .uint32x4 = some (0, 4294967295) ∧
      Shape.binary .uint32x4 .addSaturate v w = .ok sum ∧ Shape.binary .uint32x4 .add v w = .ok wrapped ∧
      Shape.Saturates .uint32x4 0 4294967295 4294967297 (sum.lane 0) (wrapped.lane 0) ∧
      Shape.Saturates .uint32x4 0 4294967295 4294967295 (sum.lane 1) (wrapped.lane 1) ∧
      ∃ difference, Shape.binary .uint32x4 .subSaturate v w = .ok difference ∧
        Shape.visible .uint32x4 (difference.lane 2).toInt = 0 := by
  intro v w sum wrapped
  have hv : v.WellFormed := by decide
  have hw : w.WellFormed := by decide
  have hrange : Shape.range? .uint32x4 = some (0, 4294967295) := by decide
  have hsum : Shape.binary .uint32x4 .addSaturate v w = .ok sum := by decide +kernel
  have hwrapped : Shape.binary .uint32x4 .add v w = .ok wrapped := by decide +kernel
  obtain ⟨⟨u, u', hu, hu', -, -, hadd⟩, d, d', hd, -, -, -, hsub⟩ := saturation_clamps hrange hv hw rfl rfl
  obtain rfl : u = sum := Except.ok.inj (hu.symm.trans hsum)
  obtain rfl : u' = wrapped := Except.ok.inj (hu'.symm.trans hwrapped)
  have hfirst : Shape.visible .uint32x4 (v.lane 0).toInt + Shape.visible .uint32x4 (w.lane 0).toInt = 4294967297 := by
    decide +kernel
  have hsecond : Shape.visible .uint32x4 (v.lane 1).toInt + Shape.visible .uint32x4 (w.lane 1).toInt = 4294967295 := by
    decide +kernel
  have hthird : Shape.visible .uint32x4 (v.lane 2).toInt - Shape.visible .uint32x4 (w.lane 2).toInt = -5 := by
    decide +kernel
  have hzero := hadd 0 (by decide)
  have hone := hadd 1 (by decide)
  rw [hfirst] at hzero
  rw [hsecond] at hone
  refine ⟨hv, hw, hrange, hsum, hwrapped, hzero, hone, d, hd, ?_⟩
  rw [(hsub 2 (by decide)).clamped, hthird]
  decide

end Vector128
