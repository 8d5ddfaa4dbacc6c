/-
Integers through floats: where an integer vector that was converted to floats does not come back.

A float keeps 24 significant bits, so a lane of 32 bits becomes the nearest integer of as many (`Shape.floats_of_integers`).
That comes back as it is, if it is still in the range. It leaves the range at the upper end only, where it is rounded up to
the power of two behind the last lane; the lower end is an integer of one bit or zero, which nothing is rounded beyond. So
the lanes that do not come back are those from the middle between that power and the float before it on
(`Shape.fits_iff_lt`), 64 below the end for signed lanes and 128 for unsigned ones.
-/
import Vector128.Proofs.Binary.Short
import Vector128.Proofs.Packed.Representable

namespace Vector128

open Outcome

/-- What converting floats back to integers gives, where the floats are those that the lanes of an integer vector became.
The limit is the least lane that does not come back. -/
structure ThroughFloats (cast : FloatCast) (s : Shape) (limit : Int) (v floats : Packed) : Prop where
  refused_iff : s.convert cast .float32x4 floats = refuse (.conversion .outOfRange) ↔
    ∃ i < s.laneCount, limit ≤ s.visible (v.lane i).toInt
  succeeds_iff : (∃ w, s.convert cast .float32x4 floats = .ok w) ↔ ∀ i < s.laneCount, s.visible (v.lane i).toInt < limit
  lanes : ∀ w, s.convert cast .float32x4 floats = .ok w → ∀ i < s.laneCount,
    NearestShort 24 (s.visible (v.lane i).toInt) (s.visible (w.lane i).toInt) ∧
      ((s.visible (v.lane i).toInt).natAbs ≤ 2 ^ 24 → w.lane i = v.lane i)

namespace Shape

variable {cast : FloatCast} {s : Shape} {v u : Packed} {x : Single} {low high n m : Int} {q : Nat}

theorem showsInteger_of_denotes (hm : x.Denotes m) : ShowsInteger .float32x4 (.float x) m :=
  ⟨m, Binary.denotes_iff.1 hm, towardZero_intCast m⟩

theorem fits_iff (hm : x.Denotes m) : Fits .float32x4 low high (.float x) ↔ low ≤ m ∧ m ≤ high := by
  have hshows := showsInteger_of_denotes hm
  constructor
  · intro h
    obtain ⟨k, hk, hmem⟩ := h.integer
    rwa [hshows.unique hk]
  · exact fun hmem => ⟨hshows.isNaN, m, hshows, hmem⟩

/-- **A lane that was rounded fits exactly below the limit.** -/
theorem fits_iff_lt (hm : x.Denotes m) (hnearest : NearestShort 24 n m) (hlow : Short 24 low)
    (hhigh : high = 2 ^ 24 * 2 ^ (q + 1) - 1) (hn : low ≤ n ∧ n ≤ high) :
    Fits .float32x4 low high (.float x) ↔ n < high + 1 - 2 ^ q := by
  have htop : n < 2 ^ 24 * 2 ^ (q + 1) := by omega
  rw [fits_iff hm, and_iff_right (hnearest.le hlow hn.1), hhigh, sub_add_cancel, ← hnearest.lt_iff (by decide) htop]
  exact Int.le_sub_one_iff

/-- integer lanes become floats that are integers of 24 bits -/
theorem floats_of_integers (cast : FloatCast) (h : Convertible .float32x4 s v) (hs : s.isInteger = true)
    (hv : v.WellFormed) :
    ∃ u, convert cast .float32x4 s v = .ok u ∧ u.WellFormed ∧ u.shape = .float32x4 ∧ ∀ i < s.laneCount,
      ∃ (x : Single) (m : Int), u.lane i = .float x ∧ x.Denotes m ∧ NearestShort 24 (s.visible (v.lane i).toInt) m := by
  obtain ⟨u, hu, huwf, hus, hlanes⟩ := convert_to_floats cast rfl h hv
  refine ⟨u, hu, huwf, hus, fun i hi => ?_⟩
  obtain ⟨x, hx, hnearest, -⟩ := hlanes i (h.lanes ▸ hi)
  obtain rfl := h.operand
  obtain ⟨m, hm, hshort⟩ :=
    hnearest.exists_denotes (by decide) (by decide) (by decide) (natAbs_visible_lt hs (hv.wrap_lane i))
  exact ⟨x, m, hx, hm, hshort⟩

/-- **Integers come back from floats below the limit**, where the range begins at a short integer and ends before a power
of two. -/
theorem throughFloats (hcast : cast.Lawful) (h : s.range? = some (low, high)) (hw : s.width = .w32) (hlow : Short 24 low)
    (hhigh : high = 2 ^ 24 * 2 ^ (q + 1) - 1) (hv : v.WellFormed) (hvs : v.shape = s) :
    ∃ u, convert cast .float32x4 s v = .ok u ∧ ThroughFloats cast s (high + 1 - 2 ^ q) v u := by
  have hs := isInteger_of_range h
  have hne : s ≠ .float32x4 := by
    rintro rfl
    cases hs
  have hcount : s.laneCount = laneCount .float32x4 := laneCount_congr hw
  have hbool := isBool_of_isInteger hs
  obtain ⟨u, hu, huwf, hus, hfloats⟩ := floats_of_integers cast ⟨hne, hcount, hbool, rfl, hvs⟩ hs hv
  have hback := convertsToIntegers hcast h ⟨hne.symm, hcount.symm, rfl, hbool, hus⟩ huwf
  have hsucceeds : (∃ w, s.convert cast .float32x4 u = .ok w) ↔
      ∀ i < s.laneCount, s.visible (v.lane i).toInt < high + 1 - 2 ^ q := by
    refine hback.succeeds_iff.trans (forall₂_congr fun i hi => ?_)
    obtain ⟨x, m, hx, hm, hnearest⟩ := hfloats i hi
    rw [hx]
    exact fits_iff_lt hm hnearest hlow hhigh (visible_lane_mem h hv hvs i)
  refine ⟨u, hu, ⟨fun hrefuse => ?_, ?_⟩, hsucceeds, fun w hconvert i hi => ?_⟩
  · by_contra hnone
    obtain ⟨w, hconvert⟩ := hsucceeds.2 fun i hi => not_le.1 fun hle => hnone ⟨i, hi, hle⟩
    cases hrefuse.symm.trans hconvert
  · rintro ⟨i, hi, hle⟩
    cases hconvert : s.convert cast .float32x4 u with
    | ok w => exact absurd (hsucceeds.1 ⟨w, hconvert⟩ i hi) (not_lt.2 hle)
    | error fault =>
      -- a float that an integer became is no NaN
      obtain ⟨j, hj, -, -, c, rfl, -, rfl⟩ := hback.refused fault hconvert
      obtain ⟨x, m, hx, hm, -⟩ := hfloats j hj
      rw [hx, (showsInteger_of_denotes hm).isNaN]
      rfl
  · obtain ⟨x, m, hx, hm, hnearest⟩ := hfloats i hi
    obtain ⟨hwwf, hws, hwlanes⟩ := hback.lanes w hconvert
    have hseen : s.visible (w.lane i).toInt = m :=
      (hx ▸ (hwlanes i hi).1).unique (showsInteger_of_denotes hm)
    rw [hseen]
    refine ⟨hnearest, fun hsmall => lane_eq_of_visible hs hwwf hv hws hvs ?_⟩
    rw [hseen, hnearest.eq_of_short (short_of_natAbs_le (by decide) hsmall)]

end Shape

end Vector128
