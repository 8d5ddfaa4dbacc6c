/-
Bits taken over from one shape to another.

The 16 bytes of a vector (`Packed.block`) say all about it once its shape is known: no two well-formed vectors of a
shape have the same bytes (`eq_of_block_eq`), and any 16 bytes are those of a vector of each shape that is not boolean
(`Shows.load_block`). So a reinterpretation is the one vector of the new shape with the bytes of the old one
(`reinterpret_eq_ok_iff`), and the laws about two of them need no look at lanes:
- there and back gives the vector itself, and a step in between changes nothing;
- a store of all lanes is a single write of the block, so it does not matter which of the two is stored;
- what was stored as one shape and is loaded as another is the reinterpretation.
`reinterpret_groupoid` puts them together.
-/
import Vector128.Proofs.Memory.Atomic
import Vector128.Proofs.Memory.RoundTrip

namespace Vector128

open Outcome

theorem Shape.bytesPerLane_mul_laneCount (s : Shape) : s.bytesPerLane * s.laneCount = 16 := by
  cases s <;> rfl

theorem Shape.bytesPerLane_mul_le {s : Shape} {count : Nat} (h : count ≤ s.laneCount) : s.bytesPerLane * count ≤ 16 :=
  s.bytesPerLane_mul_laneCount ▸ Nat.mul_le_mul_left s.bytesPerLane h

theorem Shape.byteSize_eq (s : Shape) : s.byteSize = 16 :=
  (Nat.mul_comm s.laneCount s.bytesPerLane).trans s.bytesPerLane_mul_laneCount

namespace Packed

variable {v w : Packed}

/-- the bytes of all lanes -/
def block (v : Packed) : List UInt8 := v.image v.shape.laneCount

theorem WellFormed.length_block (hv : v.WellFormed) : v.block.length = 16 := by
  rw [block, hv.length_image le_rfl, Shape.bytesPerLane_mul_laneCount]

theorem WellFormed.lane_eq_decode (hv : v.WellFormed) {i : Nat} (hi : i < v.shape.laneCount) :
    v.lane i = v.shape.decodeLane (slice v.block (i * v.shape.bytesPerLane) v.shape.bytesPerLane) := by
  rw [block, hv.slice_image le_rfl hi, Shape.decodeLane_encodeLane (hv.accepts i) (hv.normalize_lane i)]

/-- **Vectors of one shape with the same bytes are the same.** -/
theorem WellFormed.eq_of_block_eq (hv : v.WellFormed) (hw : w.WellFormed) (hs : v.shape = w.shape)
    (h : v.block = w.block) : v = w := by
  apply hv.ext hw hs
  intro i hi
  rw [hv.lane_eq_decode hi, hw.lane_eq_decode (hs ▸ hi), hs, h]

end Packed

/-! ## Blocks in regions -/

/-- where a vector can be put: a row of cells, or a buffer or a view of a reachable world, be it detached or not -/
inductive Site : {σ : Type} → Region σ → σ → Prop
  /-- a row of cells, not longer than rows can be -/
  | cells (row : List UInt8) (h : row.length ≤ sizeLimit) : Site Region.cells row
  | handle {w : World} (hw : w.Reachable) {p : Handle} (hp : w.Holds p) : Site p.region w.store

theorem Site.shows_or_shut {σ : Type} {p : Region σ} {st : σ} (h : Site p st) :
    (∃ w, p.Shows w ∧ w.live st) ∨ p.Shut st := by
  cases h with
  | cells row h => exact Or.inl ⟨Window.cells, Region.shows_cells, h⟩
  | @handle w hw p hp =>
    cases hd : (w.store.buffer p.buffer).detached with
    | false => exact Or.inl ⟨_, p.shows_region, hw.sound.live hp hd⟩
    | true => exact Or.inr (Handle.shut_region hd)

namespace Region

variable {σ : Type} {p : Region σ} {w : Window σ} {st : σ} {s : Shape} {v : Packed} {offset : Nat}

/-- any 16 bytes are the block of a vector, unless truth values are read from them -/
theorem Shows.load_block (hp : p.Shows w) (h : w.live st) (hb : s.isBool = false)
    (hfit : offset + 16 ≤ (w.get st).length) :
    ∃ u, p.loadVector st offset s s.laneCount = .ok u ∧ u.WellFormed ∧ u.shape = s ∧
      u.block = slice (w.get st) offset 16 := by
  have hsize := s.bytesPerLane_mul_laneCount
  obtain ⟨u, hu, hwf, rfl, -⟩ := hp.loadVector_ok h le_rfl (hsize ▸ hfit)
  have himage := hp.image_load h hb le_rfl (hsize ▸ hfit) hu
  rw [hsize] at himage
  exact ⟨u, hu, hwf, rfl, himage⟩

theorem Shows.storeVector_eq_write (hp : p.Shows w) (h : w.live st) (hv : v.WellFormed) :
    p.storeVector st offset v v.shape.laneCount = p.write st offset v.block := by
  have hsize := v.shape.bytesPerLane_mul_laneCount
  have hlen := hv.length_block
  by_cases hfit : offset + 16 ≤ (w.get st).length
  · rw [hp.storeVector_ok h hv le_rfl (hsize ▸ hfit), hp.write_ok h (hlen ▸ hfit), Packed.block]
  · rw [hp.storeVector_error h le_rfl (hsize ▸ not_le.1 hfit), hp.write_error h (hlen ▸ not_le.1 hfit)]

theorem Shut.storeVector_eq_write (hp : p.Shut st) : p.storeVector st offset v v.shape.laneCount =
    p.write st offset v.block := by
  have hout : ¬ within offset 16 0 = true := by
    rw [within_iff (Nat.zero_le _)]
    omega
  rw [hp.write, storeVector, fits, if_neg (lt_irrefl _), Shape.bytesPerLane_mul_laneCount, hp.byteLength, if_neg hout]

end Region

/-- **A store of all lanes is one write of the block**, wherever it goes; if it is refused, so is the write. -/
theorem Site.storeVector_eq_write {σ : Type} {p : Region σ} {st : σ} (hp : Site p st) {v : Packed} (hv : v.WellFormed)
    (offset : Nat) : p.storeVector st offset v v.shape.laneCount = p.write st offset v.block := by
  rcases hp.shows_or_shut with ⟨w, hw, hl⟩ | hshut
  · exact hw.storeVector_eq_write hl hv
  · exact hshut.storeVector_eq_write

/-- what a store of all lanes has left is loaded as the vector of any shape with the same block -/
theorem Site.load_of_store {σ : Type} {p : Region σ} {st st' : σ} (hp : Site p st) {v u : Packed} (hv : v.WellFormed)
    (hu : u.WellFormed) (hb : u.shape.isBool = false) (hblock : u.block = v.block) {offset : Nat}
    (h : p.storeVector st offset v v.shape.laneCount = (.ok (), st')) :
    p.loadVector st' offset u.shape u.shape.laneCount = .ok u := by
  have hlen := hv.length_block
  rw [hp.storeVector_eq_write hv offset] at h
  rcases hp.shows_or_shut with ⟨w, hw, hl⟩ | hshut
  · by_cases hfit : offset + v.block.length ≤ (w.get st).length
    · rw [hw.write_ok hl hfit] at h
      obtain rfl := (Prod.mk.inj h).2
      have hsplice := length_splice hfit
      have hget := w.get_put hl hsplice
      have hroom : offset + 16 ≤ (w.get (w.put st (splice (w.get st) offset v.block))).length := by
        rw [hget, hsplice, ← hlen]
        exact hfit
      obtain ⟨t, ht, hwf, hs, htblock⟩ := hw.load_block (w.live_put hl hsplice) hb hroom
      rw [hget, ← hlen, slice_splice hfit] at htblock
      obtain rfl := hwf.eq_of_block_eq hu hs (htblock.trans hblock.symm)
      exact ht
    · rw [hw.write_error hl (not_le.1 hfit)] at h
      cases (Prod.mk.inj h).1
  · rw [hshut.write] at h
    cases (Prod.mk.inj h).1

/-! ## Reinterpretation -/

namespace Shape

variable {s source : Shape} {v u : Packed}

/-- the two steps of a reinterpretation, through 16 cells -/
theorem reinterpret_exists (hb : s.isBool = false) (hsb : source.isBool = false) (hne : source ≠ s)
    (hv : v.WellFormed) (hs : v.shape = source) :
    ∃ u, s.reinterpret source v = .ok u ∧ u.WellFormed ∧ u.shape = s ∧ u.block = v.block := by
  subst hs
  have hlen := hv.length_block
  have hcells : Window.cells.live (List.replicate 16 0) := by
    show 16 ≤ sizeLimit
    decide
  have hstore : Region.cells.storeVector (List.replicate 16 0) 0 v v.shape.laneCount = (.ok (), v.block) := by
    rw [Region.shows_cells.storeVector_eq_write hcells hv, Region.shows_cells.write_ok hcells (by rw [hlen]; rfl)]
    exact congrArg (Prod.mk _) (splice_all (by rw [hlen]; rfl))
  have hblock : Window.cells.live v.block := by
    show v.block.length ≤ sizeLimit
    rw [hlen]
    decide
  have hroom : 0 + 16 ≤ (Window.cells.get v.block).length := by
    show 0 + 16 ≤ v.block.length
    rw [hlen]
  obtain ⟨u, hu, hwf, hus, hub⟩ := Region.shows_cells.load_block hblock hb hroom
  refine ⟨u, ?_, hwf, hus, ?_⟩
  · rw [reinterpret, hb, hsb, Bool.or_self, if_neg Bool.false_ne_true, if_neg hne]
    apply bind_eq_ok.2
    refine ⟨v, Packed.expect_eq_ok.2 ⟨rfl, rfl⟩, ?_⟩
    rw [if_pos (s.byteSize_eq.trans v.shape.byteSize_eq.symm), hstore]
    exact mapError_eq_ok.2 hu
  · rw [hub]
    show (v.block.drop 0).take 16 = v.block
    rw [List.drop_zero, ← hlen, List.take_length]

/-- **A reinterpretation is the one vector of the shape with the same bytes.** -/
theorem reinterpret_eq_ok_iff (hb : s.isBool = false) (hsb : source.isBool = false) (hne : source ≠ s)
    (hv : v.WellFormed) (hs : v.shape = source) :
    s.reinterpret source v = .ok u ↔ u.WellFormed ∧ u.shape = s ∧ u.block = v.block := by
  obtain ⟨t, ht, hwf, hts, htb⟩ := reinterpret_exists hb hsb hne hv hs
  constructor
  · intro h
    obtain rfl := Except.ok.inj (ht.symm.trans h)
    exact ⟨hwf, hts, htb⟩
  · rintro ⟨hu, hus, hub⟩
    obtain rfl := hwf.eq_of_block_eq hu (hts.trans hus.symm) (htb.trans hub.symm)
    exact ht

/-! ## Stores and loads of scripts -/

/-- the place of an access depends on the number of its bytes, and on nothing that other accesses change -/
theorem locate_congr {t : Shape} {st st' : Store} {m n : Nat} (ha : st.Alike st')
    (h : s.bytesPerLane * m = t.bytesPerLane * n) (target index : Value) :
    s.locate st target index m = t.locate st' target index n := by
  cases target with
  | array view =>
    have hd : view.isDetached st' = view.isDetached st := ha.detached view.buffer
    have hl : view.byteLength st' = view.byteLength st := by rw [View.byteLength, View.count, hd]; rfl
    simp only [locate, hd, hl, h]
  | _ => rfl

theorem transfers_eq_ok {count : Nat} (hs : s.isBool = false) (hpos : count ≠ 0) : s.transfers count = .ok () := by
  rw [transfers, if_neg hpos, hs]
  rfl

/-- what was stored through a view as one shape is loaded from the same index as any other with the same block -/
theorem load_of_store {w : World} (hw : w.Reachable) {view : View} (hview : view ∈ w.views) (hv : v.WellFormed)
    (hu : u.WellFormed) (hub : u.shape.isBool = false) (hblock : u.block = v.block) {index : Value} {stored : Packed}
    {st' : Store}
    (h : v.shape.store w.store (.array view) index (.vector v) v.shape.laneCount = (.ok stored, st')) :
    u.shape.load st' (.array view) index u.shape.laneCount = .ok u := by
  cases hplan : v.shape.storePlan w.store (.array view) index (.vector v) v.shape.laneCount with
  | error fault =>
    rw [store, hplan] at h
    cases (Prod.mk.inj h).1
  | ok plan =>
    obtain ⟨v', view', offset⟩ := plan
    obtain ⟨-, hvv, -, hplace⟩ := storePlan_eq_ok hplan
    obtain ⟨hview', -⟩ := locate_eq_ok hplace
    obtain rfl := Value.vector.inj hvv
    obtain rfl := Value.array.inj hview'
    rw [store_eq hplan] at h
    obtain ⟨hdone, rfl⟩ := Prod.mk.inj h
    obtain ⟨⟨⟩, hdone, -⟩ := map_eq_ok.1 hdone
    have hstore : view.region.storeVector w.store offset v v.shape.laneCount =
        (.ok (), (view.region.storeVector w.store offset v v.shape.laneCount).2) :=
      Prod.ext (mapError_eq_ok.1 hdone) rfl
    have hload := (Site.handle hw (p := .view view) hview).load_of_store hv hu hub hblock hstore
    have halike : w.store.Alike (view.region.storeVector w.store offset v v.shape.laneCount).2 :=
      ((Handle.view view).touches_storeVector w.store offset v v.shape.laneCount).toAlike
    have hsame := u.shape.bytesPerLane_mul_laneCount.trans v.shape.bytesPerLane_mul_laneCount.symm
    have htransfers := transfers_eq_ok hub u.shape.laneCount_pos.ne'
    rw [locate_congr halike hsame.symm] at hplace
    exact bind_eq_ok.2 ⟨(), htransfers, bind_eq_ok.2 ⟨(view, offset), hplace, mapError_eq_ok.2 hload⟩⟩

end Shape

/-- **Reinterpretation is a groupoid of bits.** Between shapes that are not boolean every vector has one, which goes
back to the very vector, and from which any third shape takes the same as from the vector itself. The two are stored as
the same 16 bytes, whatever they are stored to, and either is loaded where the other was stored, by byte offset and by
element index. -/
theorem reinterpret_groupoid {a b c : Shape} (ha : a.isBool = false) (hb : b.isBool = false) (hc : c.isBool = false)
    (hab : a ≠ b) (hbc : b ≠ c) (hac : a ≠ c) {v : Packed} (hv : v.WellFormed) (hs : v.shape = a) :
    ∃ u, b.reinterpret a v = .ok u ∧ u.WellFormed ∧ u.shape = b ∧ a.reinterpret b u = .ok v ∧
      (∃ t, c.reinterpret b u = .ok t ∧ c.reinterpret a v = .ok t) ∧
      (∃ bytes : List UInt8, bytes.length = 16 ∧
        ∀ {σ : Type} {p : Region σ} {st : σ}, Site p st → ∀ offset,
          p.storeVector st offset v a.laneCount = p.write st offset bytes ∧
          p.storeVector st offset u b.laneCount = p.write st offset bytes ∧
          ∀ st', p.storeVector st offset v a.laneCount = (.ok (), st') →
            p.loadVector st' offset b b.laneCount = .ok u) ∧
      ∀ {w : World}, w.Reachable → ∀ view ∈ w.views, ∀ index stored st',
        a.store w.store (.array view) index (.vector v) a.laneCount = (.ok stored, st') →
          b.load st' (.array view) index b.laneCount = .ok u := by
  obtain ⟨u, hu, hwf, hus, hblock⟩ := Shape.reinterpret_exists hb ha hab hv hs
  obtain ⟨t, ht, htwf, hts, htblock⟩ := Shape.reinterpret_exists hc ha hac hv hs
  have hback : a.reinterpret b u = .ok v :=
    (Shape.reinterpret_eq_ok_iff ha hb (Ne.symm hab) hwf hus).2 ⟨hv, hs, hblock.symm⟩
  have hthird : c.reinterpret b u = .ok t :=
    (Shape.reinterpret_eq_ok_iff hc hb hbc hwf hus).2 ⟨htwf, hts, htblock.trans hblock.symm⟩
  subst hs
  subst hus
  refine ⟨u, hu, hwf, rfl, hback, ⟨t, hthird, ht⟩, ⟨v.block, hv.length_block, ?_⟩, ?_⟩
  · intro σ p st hp offset
    refine ⟨hp.storeVector_eq_write hv offset, ?_, fun st' hst' => hp.load_of_store hv hwf hb hblock hst'⟩
    rw [hp.storeVector_eq_write hwf offset, hblock]
  · intro w hw view hview index stored st' hst'
    exact Shape.load_of_store hw hview hv hwf hb hblock hst'

/-- A signalling NaN and a negative zero among the floats, as 16-bit integers and from there as bytes. The floats are
stored in the second element of an array of floats, and the integers loaded from there. -/
theorem reinterpret_groupoid_nan :
    let v : Packed := ⟨.float32x4, .floats #v[.ofBits 0xFF800001, .ofBits 0x80000000, .ofBits 0x3F800000, .zero]⟩
    let u : Packed := ⟨.uint16x8, .ints #v[1, -128, 0, -32768, 0, 0x3F80, 0, 0, 0, 0, 0, 0, 0, 0, 0, 0]⟩
    let w := World.empty.run [.newArray .float32 5]
    let view : View := ⟨0, .float32, 0, 5⟩
    let index : Value := .number (Binary.ofNat 1)
    let stored := Shape.store .float32x4 w.store (.array view) index (.vector v) (Shape.laneCount .float32x4)
    v.WellFormed ∧ Shape.reinterpret .uint16x8 .float32x4 v = .ok u ∧ Shape.reinterpret .float32x4 .uint16x8 u = .ok v ∧
      (∃ t, Shape.reinterpret .int8x16 .uint16x8 u = .ok t ∧ Shape.reinterpret .int8x16 .float32x4 v = .ok t) ∧
      stored.1 = .ok v ∧ Shape.load .uint16x8 stored.2 (.array view) index (Shape.laneCount .uint16x8) = .ok u := by
  intro v u w view index stored
  have hv : v.WellFormed := by decide
  have hu : Shape.reinterpret .uint16x8 .float32x4 v = .ok u := by decide +kernel
  have hstored : stored.1 = .ok v := by decide +kernel
  obtain ⟨u', hu', -, -, hback, hthird, -, hload⟩ :=
    reinterpret_groupoid (a := .float32x4) (b := .uint16x8) (c := .int8x16) rfl rfl rfl (by decide) (by decide)
      (by decide) hv rfl
  obtain rfl : u' = u := Except.ok.inj (hu'.symm.trans hu)
  have hw : w.Reachable := ⟨_, rfl⟩
  have hview : view ∈ w.views := by decide
  have hpair : stored = (.ok v, stored.2) := by rw [← hstored]
  exact ⟨hv, hu, hback, hthird, hstored, hload hw view hview index v stored.2 hpair⟩

end Vector128
