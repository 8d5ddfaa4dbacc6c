/-
A selection is a blend of bits, by the mask that its selector is in memory.

The selector picks whole lanes by their index. In memory it is a row of bytes, all ones under a lane that it picks and
all zeros under any other, as wide as the lanes that it picks from; so it is loaded as a mask of the very shape
(`Shape.mask_word`). A blend by such a mask is computed on the words of lanes and gives whole lanes again
(`Shape.blend_lanes`). Floats have no bitwise operations; their bits are looked at as 32-bit integers (`Packed.bits`),
which lie where the floats lie (`Shape.lane_bits`). `select_eq_blend` puts them together.
-/
import Vector128.Packed.Compare
import Vector128.Proofs.Packed.Convert

namespace Vector128

open Outcome

/-- the bits of `v` where the mask has ones, and those of `w` where it has zeros -/
def Shape.blend (s : Shape) (mask v w : Packed) : Outcome Packed := do
  let kept ← s.binary .and mask v
  let inverse ← s.unary .not mask
  let rest ← s.binary .and inverse w
  s.binary .or kept rest

/-- the integer shape that the bits of a vector are looked at in -/
def Shape.bitsShape (s : Shape) : Shape := if s.isFloat then .int32x4 else s

/-- the bits of a vector: those of floats are read again as integers, and an integer vector is its own bits -/
def Packed.bits (v : Packed) : Outcome Packed :=
  if v.shape.isFloat then Shape.reinterpret .int32x4 v.shape v else .ok v

namespace Shape

variable {s : Shape} {m v w u mask : Packed}

theorem isInteger_bitsShape (hs : s.isBool = false) : s.bitsShape.isInteger = true := by
  cases s <;> first | rfl | cases hs

theorem bitsShape_width (s : Shape) : s.bitsShape.width = s.width := by
  cases s <;> rfl

theorem boolShape_congr {t : Shape} (h : t.width = s.width) : t.boolShape = s.boolShape := by
  rw [boolShape, boolShape, h]

/-! ## Words of a vector -/

theorem run_words (hs : s.isInteger = true) (hv : v.WellFormed) (hw : w.WellFormed) (hvs : v.shape = s)
    (hws : w.shape = s) (op : WordOp) : ∃ u, op.run s v w = .ok u ∧ u.WellFormed ∧ u.shape = s ∧
      ∀ i < s.laneCount, s.word (u.lane i) = op.onWords (s.word (v.lane i)) (s.word (w.lane i)) := by
  obtain ⟨f, hf⟩ := op.onStored_exists s
  obtain ⟨u, hu, hwf, hus, hlane⟩ := run_ints hs hv hw hvs hws hf
  refine ⟨u, hu, hwf, hus, fun i hi => ?_⟩
  rw [hlane i hi, s.word_wrap]
  exact WordOp.ofInt_onStored hf s.width.bits_le _ _

/-- an integer lane is its word, read with a sign -/
theorem eq_of_word_eq (hs : s.isInteger = true) {l l' : Lane} (hl : s.Stores l) (hl' : s.Stores l')
    (h : s.word l = s.word l') : l = l' := by
  have hread : ∀ {k : Lane}, s.Stores k → k = .int (s.word k).toInt := by
    intro k hk
    cases k with
    | int n => rw [word, Lane.toInt, ← LaneWidth.wrap_eq_toInt]; exact hk.normal.symm
    | float x =>
      rw [eq_float32x4 hk.accepts] at hs
      cases hs
    | bool b =>
      have hb : s.isBool = true := hk.accepts
      rw [isBool_of_isInteger hs] at hb
      cases hb
  rw [hread hl, hread hl', h]

/-- **A blend by a mask of all ones and all zeros picks whole lanes.** -/
theorem blend_lanes (hs : s.isInteger = true) (hmask : mask.WellFormed) (hv : v.WellFormed) (hw : w.WellFormed)
    (hms : mask.shape = s) (hvs : v.shape = s) (hws : w.shape = s) {picks : Nat → Bool}
    (hpicks : ∀ i < s.laneCount, s.word (mask.lane i) = if picks i then BitVec.allOnes _ else 0#_) :
    ∃ u, s.blend mask v w = .ok u ∧ u.WellFormed ∧ u.shape = s ∧
      ∀ i < s.laneCount, u.lane i = if picks i then v.lane i else w.lane i := by
  obtain ⟨kept, hkept, hkwf, hks, hkword⟩ := run_words hs hmask hv hms hvs .and
  obtain ⟨inverse, hinverse, hiwf, his, hiword⟩ := run_words hs hmask hmask hms hms .not
  obtain ⟨rest, hrest, hrwf, hrs, hrword⟩ := run_words hs hiwf hw his hws .and
  obtain ⟨u, hu, huwf, hus, huword⟩ := run_words hs hkwf hrwf hks hrs .or
  refine ⟨u, bind_eq_ok.2 ⟨kept, hkept, bind_eq_ok.2 ⟨inverse, hinverse, bind_eq_ok.2 ⟨rest, hrest, hu⟩⟩⟩, huwf, hus, ?_⟩
  intro i hi
  have hstores : s.Stores (if picks i then v.lane i else w.lane i) := by
    split_ifs
    · exact hvs ▸ hv.stores i
    · exact hws ▸ hw.stores i
  apply eq_of_word_eq hs (hus ▸ huwf.stores i) hstores
  rw [huword i hi, hkword i hi, hrword i hi, hiword i hi, hpicks i hi]
  simp only [WordOp.onWords]
  split_ifs
  · rw [BitVec.allOnes_and, BitVec.not_allOnes, BitVec.zero_and, BitVec.or_zero]
  · rw [BitVec.zero_and, BitVec.not_zero, BitVec.allOnes_and, BitVec.zero_or]

/-- a vector has bits, which lie lane by lane where the lanes lie -/
theorem bits_exists (hs : s.isBool = false) (hv : v.WellFormed) (hvs : v.shape = s) :
    ∃ v', v.bits = .ok v' ∧ v'.WellFormed ∧ v'.shape = s.bitsShape ∧ v'.block = v.block := by
  subst hvs
  unfold Packed.bits bitsShape
  split_ifs with hf
  · have hne : v.shape ≠ .int32x4 := by
      rw [eq_float32x4 hf]
      decide
    exact reinterpret_exists rfl hs hne hv rfl
  · exact ⟨v, rfl, hv, rfl, rfl⟩

/-- the bits of a lane -/
def laneBits (s : Shape) (l : Lane) : Lane := s.bitsShape.decodeLane (s.encodeLane l)

theorem lane_bits (hv : v.WellFormed) (hvs : v.shape = s) (hwf : w.WellFormed) (hws : w.shape = s.bitsShape)
    (hblock : w.block = v.block) {i : Nat} (hi : i < s.laneCount) : w.lane i = s.laneBits (v.lane i) := by
  subst hvs
  have hcount : v.shape.bitsShape.laneCount = v.shape.laneCount := laneCount_congr (bitsShape_width _)
  have hbytes : v.shape.bitsShape.bytesPerLane = v.shape.bytesPerLane := by
    rw [bytesPerLane, bytesPerLane, bitsShape_width]
  rw [hwf.lane_eq_decode (by rw [hws, hcount]; exact hi), hws, hbytes, hblock, Packed.block, hv.slice_image le_rfl hi]
  rfl

/-- the vector of a shape that lies where a vector of truth values lies: a lane of ones where it is true -/
theorem mask_word (hs : s.isInteger = true) (hm : m.WellFormed) (hms : m.shape = s.boolShape) (hmask : mask.WellFormed)
    (hmasks : mask.shape = s) (hblock : mask.block = m.block) {i : Nat} (hi : i < s.laneCount) :
    s.word (mask.lane i) = if (m.lane i).toBool then BitVec.allOnes _ else 0#_ := by
  subst hmasks
  have hcount : mask.shape.boolShape.laneCount = mask.shape.laneCount := laneCount_boolShape _
  have hbytes : mask.shape.bytesPerLane = m.shape.bytesPerLane := by
    rw [hms]
    cases mask.shape <;> rfl
  have hlane := hm.lane_bool (hms ▸ isBool_boolShape _) i
  have hint : mask.lane i = .int ((-(m.lane i).toBool.toInt).bmod (twoPow mask.shape.width.bits)) := by
    rw [hmask.lane_eq_decode hi, hblock, hbytes, Packed.block, hm.slice_image le_rfl (by rw [hms, hcount]; exact hi), hlane,
      encodeLane_bool, decodeLane_of_isInteger hs, Bytes.toInt_ofInt, ← hbytes, bits_width]
    rfl
  rw [hint]
  show mask.shape.word (.int (mask.shape.width.wrap _)) = _
  rw [word_wrap]
  cases (m.lane i).toBool with
  | true =>
    rw [if_pos rfl, ← BitVec.neg_one_eq_allOnes]
    exact BitVec.ofInt_neg (n := 1)
  | false =>
    rw [if_neg Bool.false_ne_true]
    exact BitVec.ofInt_ofNat _ 0

/-! ## Selections -/

/-- a selection picks whole lanes -/
theorem select_lanes (hm : m.WellFormed) (hms : m.shape = s.boolShape) (hv : v.WellFormed) (hvs : v.shape = s)
    (hw : w.WellFormed) (hws : w.shape = s) : ∃ u, s.select m v w = .ok u ∧ u.WellFormed ∧ u.shape = s ∧
      ∀ i < s.laneCount, u.lane i = if (m.lane i).toBool then v.lane i else w.lane i := by
  obtain ⟨picks, hpicks⟩ := hm.bools (hms ▸ isBool_boolShape _)
  have hpick : ∀ i, (m.lane i).toBool = picks.getD i false := by
    intro i
    rw [Packed.lane, hpicks]
    rfl
  have hlane : ∀ i < s.laneCount, (if picks.getD i false then v.laneAt i else w.laneAt i) =
      .ok (if (m.lane i).toBool then v.lane i else w.lane i) := by
    intro i hi
    rw [hpick, Packed.laneAt_eq_ok (hvs ▸ hi), Packed.laneAt_eq_ok (hws ▸ hi)]
    split_ifs <;> rfl
  have hstores : ∀ i < s.laneCount, s.Stores (if (m.lane i).toBool then v.lane i else w.lane i) := by
    intro i _
    split_ifs
    · exact hvs ▸ hv.stores i
    · exact hws ▸ hw.stores i
  obtain ⟨u, hu, hmade⟩ := Packed.build_lanes hlane hstores
  refine ⟨u, ?_, hmade⟩
  refine bind_eq_ok.2 ⟨v, Packed.expect_eq_ok.2 ⟨hvs, rfl⟩, bind_eq_ok.2 ⟨w, Packed.expect_eq_ok.2 ⟨hws, rfl⟩, ?_⟩⟩
  rw [hpicks]
  exact (if_pos hms).trans hu

theorem select_of_shape_ne (hms : m.shape ≠ s.boolShape) (hvs : v.shape = s) (hws : w.shape = s) :
    s.select m v w = refuse .selectorMismatch := by
  rw [select, Packed.expect_eq_ok.2 ⟨hvs, rfl⟩, Packed.expect_eq_ok.2 ⟨hws, rfl⟩]
  simp only [bind, Except.bind]
  split
  · exact if_neg hms
  · rfl

theorem not_bools (hs : s.isBool = true) (hm : m.WellFormed) (hms : m.shape = s) : ∃ u, s.unary .not m = .ok u ∧
    u.WellFormed ∧ u.shape = s ∧ ∀ i < s.laneCount, (u.lane i).toBool = !(m.lane i).toBool := by
  subst hms
  obtain ⟨a, ha⟩ := hm.bools hs
  obtain ⟨u, hu⟩ : ∃ u, m.mapBools Bool.not = .ok u := by
    rw [Packed.mapBools, ha]
    exact ⟨_, rfl⟩
  obtain ⟨hwf, hus, hlane⟩ := Packed.mapBools_spec hm hu
  refine ⟨u, bind_eq_ok.2 ⟨m, Packed.expect_eq_ok.2 ⟨rfl, rfl⟩, ?_⟩, hwf, hus, fun i hi => ?_⟩
  · have hk : m.shape.kind = .bool := beq_iff_eq.1 hs
    rw [hk]
    exact hu
  · rw [hlane i hi]
    rfl

/-- the other way round with the selector turned round -/
theorem select_not (hm : m.WellFormed) (hms : m.shape = s.boolShape) (hv : v.WellFormed) (hvs : v.shape = s)
    (hw : w.WellFormed) (hws : w.shape = s) : ∃ m' u, s.boolShape.unary .not m = .ok m' ∧ s.select m' v w = .ok u ∧
      s.select m w v = .ok u := by
  obtain ⟨m', hm', hmwf, hms', hnot⟩ := not_bools (isBool_boolShape s) hm hms
  obtain ⟨u, hu, huwf, hus, hulane⟩ := select_lanes hmwf hms' hv hvs hw hws
  obtain ⟨t, ht, htwf, hts, htlane⟩ := select_lanes hm hms hw hws hv hvs
  obtain rfl : u = t := by
    apply huwf.ext htwf (hus.trans hts.symm)
    intro i hi
    rw [hus] at hi
    rw [hulane i hi, htlane i hi, hnot i (by rw [laneCount_boolShape]; exact hi)]
    cases (m.lane i).toBool <;> rfl
  exact ⟨m', u, hm', hu, ht⟩

end Shape

/-! ## Masks in memory -/

theorem Port.site {σ : Type} {p : Region σ} {st : σ} (h : Port p st) : Site p st := by
  cases h with
  | cells row h => exact Site.cells row h
  | handle hw hp hd => exact Site.handle hw hp

/-- any 16 bytes are those of a vector of any shape that is not boolean -/
theorem Shape.exists_of_block {s : Shape} (hs : s.isBool = false) {m : Packed} (hm : m.WellFormed) :
    ∃ u : Packed, u.WellFormed ∧ u.shape = s ∧ u.block = m.block := by
  have hlen := hm.length_block
  have hlive : Window.cells.live m.block := by
    show m.block.length ≤ sizeLimit
    rw [hlen]
    decide
  have hroom : 0 + 16 ≤ (Window.cells.get m.block).length := by
    show 0 + 16 ≤ m.block.length
    rw [hlen]
  obtain ⟨u, -, hwf, hus, hblock⟩ := Region.shows_cells.load_block hlive hs hroom
  refine ⟨u, hwf, hus, hblock.trans ?_⟩
  show (m.block.drop 0).take 16 = m.block
  rw [List.drop_zero, ← hlen, List.take_length]

/-- what 16 bytes hold after a store of all lanes is loaded as the vector with that block -/
theorem Port.load_of_store {σ : Type} {p : Region σ} {st : σ} (h : Port p st) {m u : Packed} (hm : m.WellFormed)
    (hu : u.WellFormed) (hub : u.shape.isBool = false) (hblock : u.block = m.block) {offset : Nat}
    (hroom : offset + 16 ≤ p.byteLength st) :
    ∃ st', p.storeVector st offset m m.shape.laneCount = (.ok (), st') ∧
      p.loadVector st' offset u.shape u.shape.laneCount = .ok u := by
  obtain ⟨w, hw, hl⟩ := h.window
  rw [hw.byteLength hl] at hroom
  have hstore := hw.storeVector_ok hl hm le_rfl (by rw [Shape.bytesPerLane_mul_laneCount]; exact hroom)
  exact ⟨_, hstore, h.site.load_of_store hm hu hub hblock hstore⟩

/-- **A selection is the blend of bits by the mask that its selector is in memory.** Stored into any bytes with room for
it and loaded from there, the selector is a mask of the shape itself, always the same one; the bits of a selection are
the blend by that mask of the bits of its operands, those of integers being the integers themselves. A selector turned
round selects the other way round, and one of any other shape is a type error. -/
theorem select_eq_blend {s : Shape} (hs : s.isBool = false) {m v w : Packed} (hm : m.WellFormed)
    (hms : m.shape = s.boolShape) (hv : v.WellFormed) (hvs : v.shape = s) (hw : w.WellFormed) (hws : w.shape = s) :
    (∃ mask u, mask.WellFormed ∧ mask.shape = s ∧
      (∀ {σ : Type} {p : Region σ} {st : σ}, Port p st → ∀ offset, offset + 16 ≤ p.byteLength st →
        ∃ st', p.storeVector st offset m s.boolShape.laneCount = (.ok (), st') ∧
          p.loadVector st' offset s s.laneCount = .ok mask) ∧
      s.select m v w = .ok u ∧
      ∃ mask' v' w' u', mask.bits = .ok mask' ∧ v.bits = .ok v' ∧ w.bits = .ok w' ∧ u.bits = .ok u' ∧
        s.bitsShape.blend mask' v' w' = .ok u') ∧
    (∃ m' u, s.boolShape.unary .not m = .ok m' ∧ s.select m' v w = .ok u ∧ s.select m w v = .ok u) ∧
    ∀ m', m'.shape ≠ s.boolShape → ∃ c, s.select m' v w = refuse c ∧ c.kind = .typeError := by
  refine ⟨?_, Shape.select_not hm hms hv hvs hw hws, fun m' hne => ⟨_, Shape.select_of_shape_ne hne hvs hws, rfl⟩⟩
  obtain ⟨mask, hmask, hmasks, hblock⟩ := Shape.exists_of_block hs hm
  obtain ⟨u, hu, huwf, hus, hulane⟩ := Shape.select_lanes hm hms hv hvs hw hws
  obtain ⟨mask', hmask', hmwf', hms', hmblock⟩ := Shape.bits_exists hs hmask hmasks
  obtain ⟨v', hv', hvwf', hvs', hvblock⟩ := Shape.bits_exists hs hv hvs
  obtain ⟨w', hw', hwwf', hws', hwblock⟩ := Shape.bits_exists hs hw hws
  obtain ⟨u', hu', huwf', hus', hublock⟩ := Shape.bits_exists hs huwf hus
  have hint := Shape.isInteger_bitsShape hs
  have hcount : s.bitsShape.laneCount = s.laneCount := Shape.laneCount_congr s.bitsShape_width
  have hbool : m.shape = s.bitsShape.boolShape := hms.trans (Shape.boolShape_congr s.bitsShape_width).symm
  obtain ⟨t, ht, htwf, hts, htlane⟩ := Shape.blend_lanes hint hmwf' hvwf' hwwf' hms' hvs' hws'
    (fun i hi => Shape.mask_word hint hm hbool hmwf' hms' (hmblock.trans hblock) hi)
  obtain rfl : t = u' := by
    apply htwf.ext huwf' (hts.trans hus'.symm)
    intro i hi
    rw [hts] at hi
    have hi' : i < s.laneCount := hcount ▸ hi
    rw [htlane i hi, Shape.lane_bits hv hvs hvwf' hvs' hvblock hi', Shape.lane_bits hw hws hwwf' hws' hwblock hi',
      Shape.lane_bits huwf hus huwf' hus' hublock hi', hulane i hi']
    split_ifs <;> rfl
  refine ⟨mask, u, hmask, hmasks, ?_, hu, mask', v', w', t, hmask', hv', hw', hu', ht⟩
  intro σ p st hp offset hroom
  have hload := hp.load_of_store hm hmask (hmasks ▸ hs) hblock hroom
  rw [hms, hmasks] at hload
  exact hload

/-- Of the floats a NaN with a payload and a negative zero are selected, bit by bit, and read as integers they are
blended by the mask. -/
theorem select_eq_blend_nan :
    let m : Packed := ⟨.bool32x4, .bools #v[true, false, true, false, false, false, false, false, false, false, false,
      false, false, false, false, false]⟩
    let v : Packed := ⟨.float32x4, .floats #v[.ofBits 0xFF800001, .ofBits 0x3F800000, .zero, .zero]⟩
    let w : Packed := ⟨.float32x4, .floats #v[.zero, .ofBits 0x80000000, .ofBits 0x3F800000, .zero]⟩
    let u : Packed := ⟨.float32x4, .floats #v[.ofBits 0xFF800001, .ofBits 0x80000000, .zero, .zero]⟩
    m.WellFormed ∧ v.WellFormed ∧ w.WellFormed ∧ Shape.select .float32x4 m v w = .ok u ∧
      (∃ row mask, Region.cells.storeVector (List.replicate 16 0) 0 m 4 = (.ok (), row) ∧
        Region.cells.loadVector row 0 .float32x4 4 = .ok mask ∧
        ∃ mask' v' w' u', mask.bits = .ok mask' ∧ v.bits = .ok v' ∧ w.bits = .ok w' ∧ u.bits = .ok u' ∧
          Shape.blend .int32x4 mask' v' w' = .ok u') ∧
      ∃ c, Shape.select .float32x4 v v w = refuse c ∧ c.kind = .typeError := by
  intro m v w u
  have hm : m.WellFormed := by decide
  have hv : v.WellFormed := by decide
  have hw : w.WellFormed := by decide
  obtain ⟨⟨mask, r, -, -, hmem, hr, hbits⟩, -, hother⟩ := select_eq_blend (s := .float32x4) rfl hm rfl hv rfl hw rfl
  have hu : Shape.select .float32x4 m v w = .ok u := by decide
  obtain rfl : r = u := Except.ok.inj (hr.symm.trans hu)
  obtain ⟨row, hstore, hload⟩ := hmem (Port.cells (List.replicate 16 0) (by decide)) 0 (by decide)
  exact ⟨hm, hv, hw, hu, ⟨row, mask, hstore, hload, hbits⟩, hother v (by decide)⟩

end Vector128
