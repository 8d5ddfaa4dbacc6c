/-
What loads and stores of vectors do to the bytes of a window.

- `Shape.decodeLane_encodeLane`, `Shape.encodeLane_decodeLane`: the two codecs of a lane undo each other.
  Boolean lanes are read from more bytes than they are written to, so only the first holds of them.
- `storeVector_ok`: a store that fits is one splice, of the image of the vector (`Packed.image`). It is
  written lane by lane, and the check made before is what keeps every write of the loop inside.
- `loadVector_ok`: a load that fits gives the lanes decoded from their slices, and zero for the others.
-/
import Vector128.Memory.Image
import Vector128.Proofs.Binary.Exact
import Vector128.Proofs.Memory.Bytes
import Vector128.Proofs.Memory.Region
import Vector128.Proofs.Packed.Storage

namespace Vector128

open Outcome

namespace Shape

variable {s : Shape} {l : Lane} {bytes : List UInt8}

theorem bytesPerLane_pos (s : Shape) : 0 < s.bytesPerLane := by
  cases s <;> decide

theorem bytesPerLane_le (s : Shape) : s.bytesPerLane ≤ 4 := by
  cases s <;> decide

theorem lane_end_le (s : Shape) {i count : Nat} (hi : i < count) :
    i * s.bytesPerLane + s.bytesPerLane ≤ s.bytesPerLane * count := by
  calc i * s.bytesPerLane + s.bytesPerLane = (i + 1) * s.bytesPerLane := (Nat.succ_mul i s.bytesPerLane).symm
    _ ≤ count * s.bytesPerLane := Nat.mul_le_mul_right _ hi
    _ = s.bytesPerLane * count := Nat.mul_comm _ _

theorem bits_width (s : Shape) : s.width.bits = 8 * s.bytesPerLane := by
  cases s <;> rfl

theorem bytesPerLane_of_isFloat (h : s.isFloat = true) : s.bytesPerLane = Format.single.byteCount := by
  rw [eq_float32x4 h]
  rfl

theorem decodeLane_of_isFloat (h : s.isFloat = true) (bytes : List UInt8) :
    s.decodeLane bytes = .float (Binary.ofBits (Bytes.toNat bytes)) := by
  rw [eq_float32x4 h]
  rfl

theorem decodeLane_of_isInteger (h : s.isInteger = true) (bytes : List UInt8) :
    s.decodeLane bytes = .int (Bytes.toInt bytes) := by
  cases s <;> cases h <;> rfl

theorem decodeLane_of_isBool (h : s.isBool = true) (bytes : List UInt8) :
    s.decodeLane bytes = .bool (Bytes.toInt bytes != 0) := by
  cases s <;> cases h <;> rfl

theorem kind_cases (s : Shape) : s.isFloat = true ∨ s.isInteger = true ∨ s.isBool = true := by
  cases s <;> decide

theorem cast_zero (s : Shape) : s.cast (.int32 0) = s.zeroLane := by
  cases s <;> decide +kernel

theorem encodeLane_int (s : Shape) (n : Int) : s.encodeLane (.int n) = Bytes.ofInt s.bytesPerLane n :=
  Bytes.take_ofInt s.bytesPerLane_le n

theorem encodeLane_bool (s : Shape) (b : Bool) : s.encodeLane (.bool b) = Bytes.ofInt s.bytesPerLane (-b.toInt) :=
  Bytes.take_ofInt s.bytesPerLane_le _

theorem length_encodeLane (h : s.accepts l = true) : (s.encodeLane l).length = s.bytesPerLane := by
  cases l with
  | int n => rw [encodeLane_int, Bytes.length_ofInt]
  | float x => rw [encodeLane, Bytes.length_ofNat, bytesPerLane_of_isFloat h]
  | bool b => rw [encodeLane_bool, Bytes.length_ofInt]

theorem accepts_decodeLane (s : Shape) (bytes : List UInt8) : s.accepts (s.decodeLane bytes) = true := by
  cases s <;> rfl

theorem normalize_decodeLane (h : bytes.length = s.bytesPerLane) :
    s.normalize (s.decodeLane bytes) = s.decodeLane bytes := by
  rcases s.kind_cases with hs | hs | hs
  · rw [decodeLane_of_isFloat hs]
    rfl
  · rw [decodeLane_of_isInteger hs, Bytes.toInt, h, normalize, LaneWidth.wrap, bits_width, Int.bmod_bmod]
  · rw [decodeLane_of_isBool hs]
    rfl

/-- the lane comes back, the payload of a NaN with it -/
theorem decodeLane_encodeLane (h : s.accepts l = true) (hn : s.normalize l = l) :
    s.decodeLane (s.encodeLane l) = l := by
  cases l with
  | int n =>
    have hw : n.bmod (twoPow (8 * s.bytesPerLane)) = n := by
      have := Lane.int.inj hn
      rwa [LaneWidth.wrap, bits_width] at this
    rw [encodeLane_int, decodeLane_of_isInteger h, Bytes.toInt_ofInt, hw]
  | float x =>
    have hlt : x.toBits < 256 ^ Format.single.byteCount := x.toBits_lt
    rw [encodeLane, decodeLane_of_isFloat h, Bytes.toNat_ofNat, Nat.mod_eq_of_lt hlt, Binary.ofBits_toBits]
  | bool b =>
    rw [encodeLane_bool, decodeLane_of_isBool h, Bytes.toInt_ofInt]
    cases s <;> cases h <;> cases b <;> rfl

/-- the bytes come back, unless truth values are read from them -/
theorem encodeLane_decodeLane (hb : s.isBool = false) (h : bytes.length = s.bytesPerLane) :
    s.encodeLane (s.decodeLane bytes) = bytes := by
  rcases s.kind_cases with hs | hs | hs
  · rw [bytesPerLane_of_isFloat hs] at h
    have hlt : Bytes.toNat bytes < twoPow (Format.single.codeBits + 1) := by
      have := Bytes.toNat_lt bytes
      rwa [h] at this
    rw [decodeLane_of_isFloat hs, encodeLane, Binary.toBits_ofBits hlt, ← h, Bytes.ofNat_toNat]
  · rw [decodeLane_of_isInteger hs, encodeLane_int, ← h, Bytes.ofInt_toInt]
  · rw [hs] at hb
    cases hb

end Shape

/-! ## Vectors -/

namespace Packed

variable {v : Packed} {count : Nat}

def image (v : Packed) (count : Nat) : List UInt8 := (v.lanes.take count).flatMap v.shape.encodeLane

theorem WellFormed.accepts_of_mem (hv : v.WellFormed) {l : Lane} (h : l ∈ v.lanes.take count) :
    v.shape.accepts l = true := by
  obtain ⟨i, -, rfl⟩ := List.mem_map.1 (List.mem_of_mem_take h)
  exact hv.accepts i

theorem length_take_lanes (hc : count ≤ v.shape.laneCount) : (v.lanes.take count).length = count := by
  rw [List.length_take, lanes, List.length_map, List.length_range]
  omega

theorem WellFormed.length_image (hv : v.WellFormed) (hc : count ≤ v.shape.laneCount) :
    (v.image count).length = v.shape.bytesPerLane * count := by
  rw [image, length_flatMap_of_forall fun l hl => Shape.length_encodeLane (hv.accepts_of_mem hl), length_take_lanes hc]

theorem WellFormed.slice_image (hv : v.WellFormed) (hc : count ≤ v.shape.laneCount) {i : Nat} (hi : i < count) :
    slice (v.image count) (i * v.shape.bytesPerLane) v.shape.bytesPerLane = v.shape.encodeLane (v.lane i) := by
  have hlen : i < (v.lanes.take count).length := (length_take_lanes hc).symm ▸ hi
  rw [image, slice_flatMap (fun l hl => Shape.length_encodeLane (hv.accepts_of_mem hl)) hlen, List.getElem_take]
  simp [lanes]

end Packed

/-! ## Stores and loads -/

namespace Region

variable {σ : Type} {p : Region σ} {w : Window σ} {st : σ} {s : Shape} {v : Packed} {offset count : Nat}

theorem Shows.fits_iff (hp : p.Shows w) (h : w.live st) (hc : count ≤ s.laneCount) :
    p.fits st s offset count = .ok () ↔ offset + s.bytesPerLane * count ≤ (w.get st).length := by
  rw [fits, if_neg (not_lt.2 hc), hp.byteLength h, ← within_iff (w.length_le h)]
  split_ifs with hfit <;> simp [hfit]

/-- the loop of a store: if all lanes fit, no write of it is refused, and together they are one splice -/
theorem Shows.storeLanes (hp : p.Shows w) (h : w.live st) {lanes : List Lane} (hl : ∀ l ∈ lanes, s.accepts l = true)
    (hfit : offset + s.bytesPerLane * lanes.length ≤ (w.get st).length) :
    p.storeLanes s st offset lanes = (.ok (), w.put st (splice (w.get st) offset (lanes.flatMap s.encodeLane))) := by
  induction lanes generalizing st offset with
  | nil => rw [Region.storeLanes, List.flatMap_nil, splice_nil, w.put_get h]
  | cons l rest ih =>
    have hlen : (s.encodeLane l).length = s.bytesPerLane := Shape.length_encodeLane (hl l List.mem_cons_self)
    have hrest : ∀ l' ∈ rest, s.accepts l' = true := fun l' hl' => hl l' (List.mem_cons_of_mem l hl')
    have hsum : offset + s.bytesPerLane + s.bytesPerLane * rest.length ≤ (w.get st).length := by
      rw [List.length_cons, Nat.mul_succ] at hfit
      omega
    have hfirst : offset + (s.encodeLane l).length ≤ (w.get st).length := by omega
    have hsplice := length_splice hfirst
    rw [Region.storeLanes, hp.write_ok h hfirst]
    have hnext := ih (w.live_put h hsplice) hrest (by rw [w.get_put h hsplice, hsplice]; exact hsum)
    refine hnext.trans ?_
    have hmore : (rest.flatMap s.encodeLane).length = s.bytesPerLane * rest.length :=
      length_flatMap_of_forall fun l' hl' => Shape.length_encodeLane (hrest l' hl')
    have hall : splice (splice (w.get st) offset (s.encodeLane l)) (offset + s.bytesPerLane)
        (rest.flatMap s.encodeLane) = splice (w.get st) offset ((l :: rest).flatMap s.encodeLane) := by
      rw [← hlen, splice_append (by omega), List.flatMap_cons]
    rw [w.get_put h hsplice, w.put_put h hsplice (length_splice (by omega)), hall]

/-- **A store of lanes that fit is one splice.** -/
theorem Shows.storeVector_ok (hp : p.Shows w) (h : w.live st) (hv : v.WellFormed) (hc : count ≤ v.shape.laneCount)
    (hfit : offset + v.shape.bytesPerLane * count ≤ (w.get st).length) :
    p.storeVector st offset v count = (.ok (), w.put st (splice (w.get st) offset (v.image count))) := by
  rw [storeVector, (hp.fits_iff h hc).2 hfit]
  exact hp.storeLanes h (fun l hl => hv.accepts_of_mem hl) (by rwa [Packed.length_take_lanes hc])

theorem Shows.fits_error (hp : p.Shows w) (h : w.live st) (hc : count ≤ s.laneCount)
    (hout : (w.get st).length < offset + s.bytesPerLane * count) : p.fits st s offset count = .error .outOfBounds := by
  rw [fits, if_neg (not_lt.2 hc), hp.byteLength h, if_neg]
  rw [within_iff (w.length_le h)]
  exact not_le.2 hout

theorem Shows.storeVector_error (hp : p.Shows w) (h : w.live st) (hc : count ≤ v.shape.laneCount)
    (hout : (w.get st).length < offset + v.shape.bytesPerLane * count) :
    p.storeVector st offset v count = (.error .outOfBounds, st) := by
  rw [storeVector, hp.fits_error h hc hout]

theorem Shows.loadLane (hp : p.Shows w) (h : w.live st)
    (hfit : offset + s.bytesPerLane * count ≤ (w.get st).length) {i : Nat} (hi : i < count) :
    p.loadLane st offset s count i =
      .ok (s.decodeLane (slice (w.get st) (offset + i * s.bytesPerLane) s.bytesPerLane)) := by
  have hlane : offset + i * s.bytesPerLane + s.bytesPerLane ≤ (w.get st).length := by
    have := s.lane_end_le hi
    omega
  rw [Region.loadLane, if_pos hi, hp.read_ok h hlane]
  rfl

/-- **A load of lanes that fit has an answer**: the lanes that lie there, and zero for the others. -/
theorem Shows.loadVector_ok (hp : p.Shows w) (h : w.live st) (hc : count ≤ s.laneCount)
    (hfit : offset + s.bytesPerLane * count ≤ (w.get st).length) :
    ∃ u, p.loadVector st offset s count = .ok u ∧ u.WellFormed ∧ u.shape = s ∧
      (∀ i < count, u.lane i = s.decodeLane (slice (w.get st) (offset + i * s.bytesPerLane) s.bytesPerLane)) ∧
      ∀ i, count ≤ i → u.lane i = s.zeroLane := by
  have hlane : ∀ i < s.laneCount, ∃ l, p.loadLane st offset s count i = .ok l ∧ s.accepts l = true := by
    intro i _
    by_cases hi : i < count
    · exact ⟨_, hp.loadLane h hfit hi, s.accepts_decodeLane _⟩
    · exact ⟨s.zeroLane, by rw [Region.loadLane, if_neg hi, s.cast_zero], s.accepts_zeroLane⟩
  obtain ⟨u, hu⟩ := Packed.buildUpTo_exists le_rfl hlane
  obtain ⟨hwf, hs, hset⟩ := Packed.build_eq_ok_iff.1 hu
  refine ⟨u, ?_, hwf, hs, fun i hi => ?_, fun i hi => ?_⟩
  · rw [Region.loadVector, (hp.fits_iff h hc).2 hfit]
    exact hu
  · obtain ⟨l, hl, -, hul⟩ := hset i (by omega)
    rw [hp.loadLane h hfit hi] at hl
    obtain rfl := Except.ok.inj hl
    rw [hul, Shape.normalize_decodeLane]
    have := s.lane_end_le hi
    exact length_slice (by omega)
  · by_cases hin : i < s.laneCount
    · obtain ⟨l, hl, -, hul⟩ := hset i hin
      rw [Region.loadLane, if_neg (not_lt.2 hi), s.cast_zero] at hl
      obtain rfl := Except.ok.inj hl
      rw [hul, s.normalize_zeroLane]
    · rw [hwf.lane_of_le (hs ▸ not_lt.1 hin), hs]

theorem Shows.loadVector_error (hp : p.Shows w) (h : w.live st) (hc : count ≤ s.laneCount)
    (hout : (w.get st).length < offset + s.bytesPerLane * count) :
    p.loadVector st offset s count = .error .outOfBounds := by
  rw [loadVector, hp.fits_error h hc hout]
  rfl

end Region

end Vector128
