/-
A load gives back what a store wrote, and a store puts back what a load read.

The place is any `Port`: a row of cells, or a buffer or a view of a reachable world that is not detached. Both
operations succeed exactly if the lanes end inside it. Nothing is asked of the offset, which need not be a
multiple of the lane size, or of the bytes that lie there.

- `load_undoes_store`: the lanes that were stored come back bit by bit, the others are zero. For all but
  boolean vectors, which are read from any byte that is not zero, storing what was loaded changes no byte.
-/
import Vector128.Proofs.Memory.Image
import Vector128.Proofs.Memory.World

namespace Vector128

/-- where vectors are stored and loaded -/
inductive Port : {σ : Type} → Region σ → σ → Prop
  /-- a row of cells, not longer than rows can be -/
  | cells (row : List UInt8) (h : row.length ≤ sizeLimit) : Port Region.cells row
  /-- an attached buffer, or a view of one -/
  | handle {w : World} (hw : w.Reachable) {p : Handle} (hp : w.Holds p)
    (hd : (w.store.buffer p.buffer).detached = false) : Port p.region w.store

theorem Port.window {σ : Type} {p : Region σ} {st : σ} (h : Port p st) : ∃ w, p.Shows w ∧ w.live st := by
  cases h with
  | cells row h => exact ⟨Window.cells, Region.shows_cells, h⟩
  | handle hw hp hd => exact ⟨_, Handle.shows_region _, hw.sound.live hp hd⟩

section Slices

variable {bytes new : List UInt8} {offset count size : Nat}

theorem slice_add (bytes : List UInt8) (offset a b : Nat) :
    slice bytes offset (a + b) = slice bytes offset a ++ slice bytes (offset + a) b := by
  simp only [slice, List.take_add, List.drop_drop]

theorem flatMap_slice (bytes : List UInt8) (offset size count : Nat) :
    ((List.range count).flatMap fun i => slice bytes (offset + i * size) size) = slice bytes offset (size * count) := by
  induction count with
  | zero => simp [slice]
  | succ count ih =>
    rw [List.range_succ, List.flatMap_append, ih, Nat.mul_succ, slice_add, Nat.mul_comm size count]
    simp

theorem slice_splice_of_le {k : Nat} (h : offset + new.length ≤ bytes.length) (hk : k + size ≤ new.length) :
    slice (splice bytes offset new) (offset + k) size = slice new k size := by
  rw [← slice_slice hk, slice_splice h]

end Slices

theorem Packed.image_eq {v : Packed} {count : Nat} (hc : count ≤ v.shape.laneCount) :
    v.image count = (List.range count).flatMap fun i => v.shape.encodeLane (v.lane i) := by
  rw [image, lanes, ← List.map_take, List.take_range, Nat.min_eq_left hc, List.flatMap_map]

/-! ## Both directions -/

namespace Region

variable {σ : Type} {p : Region σ} {w : Window σ} {st : σ} {v : Packed} {offset count : Nat}

theorem Shows.load_store (hp : p.Shows w) (h : w.live st) (hv : v.WellFormed) (hc : count ≤ v.shape.laneCount)
    (hfit : offset + v.shape.bytesPerLane * count ≤ (w.get st).length) :
    ∃ u, p.loadVector (w.put st (splice (w.get st) offset (v.image count))) offset v.shape count = .ok u ∧
      u.WellFormed ∧ u.shape = v.shape ∧ (∀ i < count, u.lane i = v.lane i) ∧
        ∀ i, count ≤ i → u.lane i = v.shape.zeroLane := by
  have himage := hv.length_image hc
  have hlen : (splice (w.get st) offset (v.image count)).length = (w.get st).length := length_splice (himage ▸ hfit)
  have hget := w.get_put h hlen
  obtain ⟨u, hu, hwf, hs, hlane, hrest⟩ := hp.loadVector_ok (w.live_put h hlen) hc (by rw [hget, hlen]; exact hfit)
  refine ⟨u, hu, hwf, hs, fun i hi => ?_, hrest⟩
  have hle := v.shape.lane_end_le hi
  calc u.lane i = v.shape.decodeLane (slice (splice (w.get st) offset (v.image count))
        (offset + i * v.shape.bytesPerLane) v.shape.bytesPerLane) := by rw [hlane i hi, hget]
    _ = v.shape.decodeLane (slice (v.image count) (i * v.shape.bytesPerLane) v.shape.bytesPerLane) := by
      rw [slice_splice_of_le (himage ▸ hfit) (himage ▸ hle)]
    _ = v.shape.decodeLane (v.shape.encodeLane (v.lane i)) := by rw [hv.slice_image hc hi]
    _ = v.lane i := Shape.decodeLane_encodeLane (hv.accepts i) (hv.normalize_lane i)

/-- the image of what was loaded is what lies there -/
theorem Shows.image_load (hp : p.Shows w) (h : w.live st) {s : Shape} (hb : s.isBool = false) (hc : count ≤ s.laneCount)
    (hfit : offset + s.bytesPerLane * count ≤ (w.get st).length) {u : Packed}
    (hu : p.loadVector st offset s count = .ok u) :
    u.image count = slice (w.get st) offset (s.bytesPerLane * count) := by
  obtain ⟨u', hu', -, rfl, hlane, -⟩ := hp.loadVector_ok h hc hfit
  obtain rfl : u' = u := Except.ok.inj (hu'.symm.trans hu)
  have hpiece : ∀ i ∈ List.range count, u'.shape.encodeLane (u'.lane i) =
      slice (w.get st) (offset + i * u'.shape.bytesPerLane) u'.shape.bytesPerLane := by
    intro i hi
    have hi := List.mem_range.1 hi
    have hle := u'.shape.lane_end_le hi
    rw [hlane i hi, Shape.encodeLane_decodeLane hb (length_slice (by omega))]
  rw [Packed.image_eq hc, List.flatMap_congr hpiece, flatMap_slice]

theorem Shows.store_load (hp : p.Shows w) (h : w.live st) {s : Shape} (hb : s.isBool = false) (hc : count ≤ s.laneCount)
    (hfit : offset + s.bytesPerLane * count ≤ (w.get st).length) {u : Packed}
    (hu : p.loadVector st offset s count = .ok u) : p.storeVector st offset u count = (.ok (), st) := by
  have himage := hp.image_load h hb hc hfit hu
  obtain ⟨u', hu', hwf, rfl, -⟩ := hp.loadVector_ok h hc hfit
  obtain rfl : u' = u := Except.ok.inj (hu'.symm.trans hu)
  rw [hp.storeVector_ok h hwf hc hfit, himage, splice_slice hfit, w.put_get h]

end Region

/-- **Loads undo stores, and stores undo loads.** A store and a load of `count` lanes succeed exactly if the
lanes end inside the place. After a store a load gives the lanes stored, and zero for the others; storing
lanes just loaded changes nothing, if they are not boolean. -/
theorem load_undoes_store {σ : Type} {p : Region σ} {st : σ} (hp : Port p st) {v : Packed} (hv : v.WellFormed)
    {count : Nat} (hc : count ≤ v.shape.laneCount) (offset : Nat) :
    ((p.storeVector st offset v count).1 = .ok () ↔ offset + v.shape.bytesPerLane * count ≤ p.byteLength st) ∧
      ((∃ u, p.loadVector st offset v.shape count = .ok u) ↔
        offset + v.shape.bytesPerLane * count ≤ p.byteLength st) ∧
      (∀ st', p.storeVector st offset v count = (.ok (), st') →
        ∃ u, p.loadVector st' offset v.shape count = .ok u ∧ u.WellFormed ∧ u.shape = v.shape ∧
          (∀ i < count, u.lane i = v.lane i) ∧ ∀ i, count ≤ i → u.lane i = v.shape.zeroLane) ∧
      (v.shape.isBool = false → ∀ u, p.loadVector st offset v.shape count = .ok u →
        p.storeVector st offset u count = (.ok (), st)) := by
  obtain ⟨w, hs, hl⟩ := hp.window
  rw [hs.byteLength hl]
  by_cases hfit : offset + v.shape.bytesPerLane * count ≤ (w.get st).length
  · have hstore := hs.storeVector_ok hl hv hc hfit
    obtain ⟨u, hu, -⟩ := hs.loadVector_ok hl hc hfit
    refine ⟨iff_of_true (by rw [hstore]) hfit, iff_of_true ⟨u, hu⟩ hfit, fun st' hst' => ?_, fun hb u' hu' => ?_⟩
    · obtain rfl := (Prod.mk.inj (hstore.symm.trans hst')).2
      exact hs.load_store hl hv hc hfit
    · exact hs.store_load hl hb hc hfit hu'
  · have hstore := hs.storeVector_error (v := v) hl hc (not_le.1 hfit)
    have hload := hs.loadVector_error hl hc (not_le.1 hfit)
    refine ⟨iff_of_false (by rw [hstore]; exact nofun) hfit, iff_of_false ?_ hfit, fun st' hst' => ?_,
      fun hb u' hu' => ?_⟩
    · rintro ⟨u, hu⟩
      cases hload.symm.trans hu
    · cases hstore.symm.trans hst'
    · cases hload.symm.trans hu'

/-- three masks of two bytes, at an odd offset in eight cells -/
theorem load_undoes_store_masks :
    let v : Packed := ⟨.bool16x8, .bools (Vector.ofFn fun i => i.val % 2 == 0 && i.val < 8)⟩
    (Region.cells.storeVector (List.replicate 8 0) 1 v 3).1 = .ok () ∧
      ∀ st', Region.cells.storeVector (List.replicate 8 0) 1 v 3 = (.ok (), st') →
        ∃ u, Region.cells.loadVector st' 1 .bool16x8 3 = .ok u ∧ u.WellFormed ∧ u.shape = .bool16x8 ∧
          (∀ i < 3, u.lane i = v.lane i) ∧ ∀ i, 3 ≤ i → u.lane i = .bool false := by
  intro v
  have hp : Port Region.cells (List.replicate 8 0) := .cells _ (by decide)
  have h := load_undoes_store hp (show v.WellFormed by decide) (show 3 ≤ v.shape.laneCount by decide) 1
  exact ⟨h.1.2 (by decide), h.2.2.1⟩

end Vector128
