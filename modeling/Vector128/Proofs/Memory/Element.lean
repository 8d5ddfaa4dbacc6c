/-
Elements of typed arrays: what is written into one and read from it.

- `View.get_assigned`: an element shows what it was assigned, as converted, and the others what they showed before.
- `View.setAll_blocks`: assignments one after another replace the blocks of their elements. So a view made of elements is
  the same as a new one to which they are assigned, in any order (`View.setAll_eq_ofElements`).
- `View.ElementLaws`: the laws of elements; `elements_are_cells`: every view that was made has them.
-/
import Vector128.Proofs.Memory.Codec
import Vector128.Proofs.Memory.Image
import Vector128.Proofs.Memory.World

namespace Vector128

namespace View

/-- assignments to elements one after another, up to the first that is refused -/
def setAll (v : View) (st : Store) : List (Nat × Double) → Outcome Unit × Store
  | [] => (.ok (), st)
  | (i, x) :: rest =>
    match v.set st i x with
    | (.ok (), st) => v.setAll st rest
    | (.error fault, st) => (.error fault, st)

variable {v : View} {st : Store} {i j : Nat} {x : Double}

theorem get_of_live (hl : v.window.live st) (hi : i < v.length) :
    v.get st i = .ok (v.kind.decode (slice (v.window.get st) (i * v.kind.size) v.kind.size)) := by
  rw [get, count_of_live hl, if_pos hi, v.shows_region.read_ok hl (by rw [length_window hl]; exact block_end_le hi)]
  rfl

theorem set_of_live (hl : v.window.live st) (hi : i < v.length) (x : Double) :
    v.set st i x = (.ok (), v.window.put st (splice (v.window.get st) (i * v.kind.size) (v.kind.encode x))) := by
  rw [set, count_of_live hl, if_pos hi, v.shows_region.write_ok hl]
  rw [length_window hl, World.length_encode]
  exact block_end_le hi

theorem length_assigned (hl : v.window.live st) (hi : i < v.length) (x : Double) :
    (splice (v.window.get st) (i * v.kind.size) (v.kind.encode x)).length = (v.window.get st).length := by
  apply length_splice
  rw [length_window hl, World.length_encode]
  exact block_end_le hi

/-- **An element shows what it was assigned, as converted**, and the others what they showed before. -/
theorem get_assigned (hl : v.window.live st) (hi : i < v.length) (x : Double) (j : Nat) :
    v.get (v.window.put st (splice (v.window.get st) (i * v.kind.size) (v.kind.encode x))) j =
      if j = i then .ok (v.kind.converted x) else v.get st j := by
  have hlen := length_assigned hl hi x
  have hlive := v.window.live_put hl hlen
  have hblock := slice_splice_block (length_window hl) (World.length_encode v.kind x) hi j
  rcases Nat.lt_or_ge j v.length with hj | hj
  · rw [get_of_live hlive hj, v.window.get_put hl hlen, hblock]
    split_ifs
    · rw [v.kind.decode_encode]
    · exact (get_of_live hl hj).symm
  · rw [if_neg (by omega), View.get, View.get, count_of_live hl, count_of_live hlive, if_neg (not_lt.2 hj),
      if_neg (not_lt.2 hj)]

/-- **Assignments one after another replace the blocks of their elements**, each by the last Number assigned to it. Here
an element is always assigned the same one. -/
theorem setAll_blocks {g : Nat → Double} {writes : List (Nat × Double)} (hl : v.window.live st)
    (hin : ∀ p ∈ writes, p.1 < v.length ∧ p.2 = g p.1) :
    ∃ bytes, v.setAll st writes = (.ok (), v.window.put st bytes) ∧ bytes.length = (v.window.get st).length ∧
      ∀ j < v.length, slice bytes (j * v.kind.size) v.kind.size =
        if j ∈ writes.map Prod.fst then v.kind.encode (g j)
        else slice (v.window.get st) (j * v.kind.size) v.kind.size := by
  induction writes generalizing st with
  | nil => exact ⟨v.window.get st, by rw [setAll, v.window.put_get hl], rfl, fun j _ => by simp⟩
  | cons p rest ih =>
    obtain ⟨i, x⟩ := p
    obtain ⟨hi, hx⟩ := hin (i, x) List.mem_cons_self
    dsimp only at hi hx
    subst hx
    have hlen := length_assigned hl hi (g i)
    obtain ⟨bytes, hset, hbytes, hblocks⟩ :=
      ih (v.window.live_put hl hlen) fun p hp => hin p (List.mem_cons_of_mem _ hp)
    rw [v.window.get_put hl hlen] at hbytes hblocks
    refine ⟨bytes, ?_, hbytes.trans hlen, ?_⟩
    · rw [setAll, set_of_live hl hi]
      exact hset.trans (congrArg (Prod.mk _) (v.window.put_put hl hlen hbytes))
    · intro j hj
      rw [hblocks j hj, slice_splice_block (length_window hl) (World.length_encode _ _) hi]
      by_cases hrest : j ∈ rest.map Prod.fst
      · simp [hrest]
      · by_cases hji : j = i
        · simp [hji]
        · simp [hrest, hji]

/-! ## New views -/

/-- a view of the next new buffer, of all of it -/
def fresh (st : Store) (kind : ElementKind) (length : Nat) : View := ⟨st.buffers.length, kind, 0, length⟩

section Fresh

variable {kind : ElementKind} {length : Nat} {bytes new : List UInt8}

theorem buffer_fresh (st : Store) (bytes : List UInt8) :
    (st.addBuffer (Buffer.ofBytes bytes)).2.buffer st.buffers.length = Buffer.ofBytes bytes := by
  rw [World.buffer_addBuffer, if_pos rfl]

theorem count_fresh (st : Store) (kind : ElementKind) (length : Nat) (bytes : List UInt8) :
    (fresh st kind length).count (st.addBuffer (Buffer.ofBytes bytes)).2 = length := by
  rw [count, isDetached, fresh, buffer_fresh]
  rfl

theorem live_fresh (st : Store) (hbytes : bytes.length = length * kind.size) (hsize : bytes.length ≤ sizeLimit) :
    (fresh st kind length).window.live (st.addBuffer (Buffer.ofBytes bytes)).2 := by
  have hbuffer := buffer_fresh st bytes
  refine ⟨⟨congrArg Buffer.detached hbuffer, (congrArg (·.bytes.length) hbuffer).trans_le hsize⟩, ?_⟩
  show 0 + length * kind.size ≤ (Store.buffer _ st.buffers.length).bytes.length
  rw [hbuffer, Nat.zero_add]
  exact hbytes.ge

theorem get_fresh (st : Store) (hbytes : bytes.length = length * kind.size) :
    (fresh st kind length).window.get (st.addBuffer (Buffer.ofBytes bytes)).2 = bytes := by
  show slice (Store.buffer _ st.buffers.length).bytes 0 (length * kind.size) = bytes
  rw [buffer_fresh, ← hbytes]
  exact List.take_length

theorem put_fresh (st : Store) (hnew : new.length = bytes.length) :
    (fresh st kind length).window.put (st.addBuffer (Buffer.ofBytes bytes)).2 new =
      (st.addBuffer (Buffer.ofBytes new)).2 := by
  show Store.withBytes _ st.buffers.length (splice (Store.buffer _ st.buffers.length).bytes 0 new) = _
  rw [Store.withBytes, buffer_fresh, Buffer.ofBytes, splice_all hnew]
  simp [Store.setBuffer, Store.addBuffer, Buffer.ofBytes]

/-- **Elements that a view is made of, and the same ones assigned to a new view**, each at least once and in any order. -/
theorem setAll_eq_ofElements (st : Store) {xs : List Double} (hsize : xs.length * kind.size ≤ sizeLimit)
    {order : List (Fin xs.length)} (horder : ∀ i, i ∈ order) :
    ∃ st', allocate st kind xs.length = .ok (fresh st kind xs.length, st') ∧
      (fresh st kind xs.length).count st' = xs.length ∧
      (fresh st kind xs.length).setAll st' (order.map fun i => (i.val, xs.get i)) =
        (.ok (), (ofElements st kind xs).2) := by
  let zeros : List UInt8 := List.replicate (xs.length * kind.size) 0
  have hzeros : zeros.length = xs.length * kind.size := List.length_replicate
  have hin : ∀ p ∈ order.map fun i => (i.val, xs.get i), p.1 < xs.length ∧ p.2 = xs.getD p.1 Binary.zero := by
    intro p hp
    obtain ⟨i, -, rfl⟩ := List.mem_map.1 hp
    exact ⟨i.isLt, by simp⟩
  obtain ⟨bytes, hset, hbytes, hblocks⟩ := setAll_blocks (g := fun j => xs.getD j Binary.zero)
    (live_fresh st hzeros (hzeros.trans_le hsize)) hin
  rw [get_fresh st hzeros] at hbytes
  refine ⟨_, ?_, count_fresh st kind xs.length zeros, hset.trans (congrArg (Prod.mk _) ?_)⟩
  · rw [allocate, Store.allocate, if_neg (not_lt.2 hsize)]
    rfl
  · have hall : bytes = xs.flatMap kind.encode := by
      refine eq_of_blocks kind.size_pos (hbytes.trans hzeros) (World.length_ofElements kind xs) fun j hj => ?_
      have hmem : j ∈ (order.map fun i => (i.val, xs.get i)).map Prod.fst :=
        List.mem_map.2 ⟨_, List.mem_map.2 ⟨⟨j, hj⟩, horder _, rfl⟩, rfl⟩
      refine (hblocks j hj).trans ?_
      rw [if_pos hmem, slice_flatMap (fun x _ => World.length_encode kind x) hj]
      simp [hj, fresh]
    rw [put_fresh st hbytes, hall]
    rfl

end Fresh

/-! ## Laws -/

/-- no other bytes differ than those of an element -/
def OnlyElement (v : View) (i : Nat) (st st' : Store) : Prop :=
  (∀ id ≠ v.buffer, st'.buffer id = st.buffer id) ∧
    ∀ k : Nat, k < v.start + i * v.kind.size ∨ v.start + (i + 1) * v.kind.size ≤ k →
      (st'.buffer v.buffer).bytes[k]? = (st.buffer v.buffer).bytes[k]?

theorem onlyElement_of_live (hl : v.window.live st) (hi : i < v.length) (x : Double) : v.OnlyElement i st
    (v.window.put st (splice (v.window.get st) (i * v.kind.size) (v.kind.encode x))) := by
  have hend : i * v.kind.size + v.kind.size ≤ v.length * v.kind.size := block_end_le hi
  have hlen := World.length_encode v.kind x
  have hput : v.window.put st (splice (v.window.get st) (i * v.kind.size) (v.kind.encode x)) =
      st.withBytes v.buffer (splice (st.buffer v.buffer).bytes (v.start + i * v.kind.size) (v.kind.encode x)) :=
    congrArg (st.withBytes v.buffer) (splice_splice_slice hl.2 (hlen ▸ hend))
  have hfit : v.start + i * v.kind.size + (v.kind.encode x).length ≤ (st.buffer v.buffer).bytes.length := by
    have hinside : v.start + v.length * v.kind.size ≤ (st.buffer v.buffer).bytes.length := hl.2
    omega
  rw [hput]
  refine ⟨(Store.touches_withBytes st v.buffer (length_splice hfit)).others, fun k hk => ?_⟩
  rw [Nat.succ_mul] at hk
  rw [Store.withBytes, Store.buffer_setBuffer (Store.lt_of_attached hl.1.1), if_pos rfl, getElem?_splice hfit,
    if_neg (by omega)]

/-- The laws of the elements of a view. -/
structure ElementLaws (v : View) (st : Store) : Prop where
  /-- an index from the length on is refused, and any other is not -/
  outside : ∀ i, v.count st ≤ i → v.get st i = .error .outOfBounds ∧ ∀ x, v.set st i x = (.error .outOfBounds, st)
  get : ∀ i < v.count st, ∃ y, v.get st i = .ok y
  /-- an assignment converts the Number to the kind and changes no other element -/
  set : ∀ i < v.count st, ∀ x, ∃ st', v.set st i x = (.ok (), st') ∧ v.count st' = v.count st ∧
    v.get st' i = .ok (v.kind.converted x) ∧ (∀ j ≠ i, v.get st' j = v.get st j) ∧ v.OnlyElement i st st'
  /-- what was read from an element and is assigned to it changes nothing -/
  restore : ∀ i y, v.get st i = .ok y → (v.kind = .float32 → y.isNaN = false) → v.set st i y = (.ok (), st)
  /-- save that a 32-bit NaN may become another one -/
  restoreNaN : ∀ i y, v.get st i = .ok y → v.kind = .float32 → y.isNaN = true →
    ∃ st' z, v.set st i y = (.ok (), st') ∧ v.get st' i = .ok z ∧ z.isNaN = true ∧ v.OnlyElement i st st'

theorem lt_count_of_get {y : Double} (h : v.get st i = .ok y) : i < v.count st := by
  by_contra hi
  rw [get, if_neg hi] at h
  cases h

theorem elementLaws_of_detached (hd : (st.buffer v.buffer).detached = true) : v.ElementLaws st := by
  have hcount : v.count st = 0 := by simp [count, isDetached, hd]
  have hnone : ∀ i, ¬i < v.count st := fun i => hcount ▸ Nat.not_lt_zero i
  exact {
    outside := fun i _ => ⟨if_neg (hnone i), fun x => if_neg (hnone i)⟩
    get := fun i hi => absurd hi (hnone i)
    set := fun i hi => absurd hi (hnone i)
    restore := fun i y h => absurd (lt_count_of_get h) (hnone i)
    restoreNaN := fun i y h => absurd (lt_count_of_get h) (hnone i) }

theorem elementLaws_of_live (hl : v.window.live st) : v.ElementLaws st where
  outside i hi := ⟨if_neg (not_lt.2 hi), fun x => if_neg (not_lt.2 hi)⟩
  get := by
    intro i hi
    rw [count_of_live hl] at hi
    exact ⟨_, get_of_live hl hi⟩
  set := by
    intro i hi x
    rw [count_of_live hl] at hi
    refine ⟨_, set_of_live hl hi x, ?_, ?_, ?_, onlyElement_of_live hl hi x⟩
    · rw [count_of_live hl, count_of_live (v.window.live_put hl (length_assigned hl hi x))]
    · rw [get_assigned hl hi, if_pos rfl]
    · intro j hji
      rw [get_assigned hl hi, if_neg hji]
  restore := by
    intro i y h hnan
    have hi := lt_count_of_get h
    rw [count_of_live hl] at hi
    rw [get_of_live hl hi] at h
    obtain rfl := Except.ok.inj h
    have hend : i * v.kind.size + v.kind.size ≤ (v.window.get st).length := length_window hl ▸ block_end_le hi
    rw [set_of_live hl hi, v.kind.encode_decode (length_slice hend) hnan, splice_slice hend, v.window.put_get hl]
  restoreNaN := by
    intro i y h hkind hnan
    have hi := lt_count_of_get h
    rw [count_of_live hl] at hi
    refine ⟨_, v.kind.converted y, set_of_live hl hi y, ?_, ?_, onlyElement_of_live hl hi y⟩
    · rw [get_assigned hl hi, if_pos rfl]
    · rw [hkind, ElementKind.converted, Binary.isNaN_convert (by decide), Binary.isNaN_convert (by decide), hnan]

end View

/-- **Elements are cells of converted Numbers.** A view that was made refuses an index from its length on and no other.
What is assigned to an element is read from it as converted to the kind, a 32-bit float being the nearest one, and no
other element changes. What is read from an element can be assigned to it without changing a byte, save that a 32-bit NaN
may become another one. A view made of elements is the same as a new one to which they are assigned, in any order; the
elements take no more bytes than the Numbers they are made of, so where there are these there is room for them. -/
theorem elements_are_cells {w : World} (hw : w.Reachable) :
    (∀ v ∈ w.views, v.ElementLaws w.store) ∧
    (∀ x, RoundsTo x x.convert) ∧
    ∀ (st : Store) (kind : ElementKind) (xs : List Double) (order : List (Fin xs.length)),
      xs.length * kind.size ≤ sizeLimit → order.Perm (List.finRange xs.length) →
      ∃ v st₁ st₂, View.allocate st kind xs.length = .ok (v, st₁) ∧ View.ofElements st kind xs = (v, st₂) ∧
        v.count st₁ = xs.length ∧ v.count st₂ = xs.length ∧
        v.setAll st₁ (order.map fun i => (i.val, xs.get i)) = (.ok (), st₂) := by
  refine ⟨?_, roundsTo_convert, ?_⟩
  · intro v hv
    cases hd : (w.store.buffer v.buffer).detached with
    | true => exact View.elementLaws_of_detached hd
    | false => exact View.elementLaws_of_live (hw.sound.live (p := .view v) hv hd)
  · intro st kind xs order hsize horder
    obtain ⟨st', hnew, hcount, hset⟩ :=
      View.setAll_eq_ofElements st hsize fun i => horder.mem_iff.2 (List.mem_finRange i)
    exact ⟨_, st', _, hnew, rfl, hcount, View.count_fresh st kind xs.length _, hset⟩

/-- A signalling NaN that is read and assigned again, the least Number that is rounded to an infinity, an index at the
length, and four clamped bytes that are assigned out of order. -/
theorem elements_are_cells_nan :
    let w := World.empty.run [.bufferOf [9, 9, 9, 9, 1, 0, 128, 255, 0, 0, 128, 63], .viewOf 0 .float32 4 2]
    let v : View := ⟨0, .float32, 4, 2⟩
    let y : Double := .ofBits 0xFFF8000020000000
    let x : Double := .ofBits 0x47EFFFFFF0000000
    let xs : List Double := [.ofBits 0x406FD00000000000, .infinity false, .ofInt (-1), .nan]
    let order : List (Fin xs.length) := [3, 1, 0, 2]
    w.Reachable ∧ v ∈ w.views ∧ v.get w.store 0 = .ok y ∧
      (∃ st' z, v.set w.store 0 y = (.ok (), st') ∧ v.get st' 0 = .ok z ∧ z.isNaN = true ∧
        v.OnlyElement 0 w.store st') ∧
      (∃ st', v.set w.store 1 x = (.ok (), st') ∧ v.get st' 1 = .ok (.infinity false)) ∧
      v.set w.store 2 x = (.error .outOfBounds, w.store) ∧
      ∃ u st₁ st₂, View.allocate w.store .uint8Clamped 4 = .ok (u, st₁) ∧
        View.ofElements w.store .uint8Clamped xs = (u, st₂) ∧ (st₂.buffer 1).bytes = [254, 255, 0, 0] ∧
        u.setAll st₁ (order.map fun i => (i.val, xs.get i)) = (.ok (), st₂) := by
  intro w v y x xs order
  have hw : w.Reachable := ⟨_, rfl⟩
  have hv : v ∈ w.views := by decide +kernel
  obtain ⟨hlaws, -, hnew⟩ := elements_are_cells hw
  have hy : v.get w.store 0 = .ok y := by decide +kernel
  have hcount : v.count w.store = 2 := by decide +kernel
  obtain ⟨st', hset, -, hget, -⟩ := (hlaws v hv).set 1 (by rw [hcount]; decide) x
  have hinfinity : v.kind.converted x = .infinity false := by decide +kernel
  obtain ⟨u, st₁, st₂, hallocate, hof, -, -, hall⟩ := hnew w.store .uint8Clamped xs order (by decide) (by decide)
  have hbytes : ((View.ofElements w.store .uint8Clamped xs).2.buffer 1).bytes = [254, 255, 0, 0] := by decide +kernel
  rw [hof] at hbytes
  exact ⟨hw, hv, hy, (hlaws v hv).restoreNaN 0 y hy rfl (by decide +kernel), ⟨st', hset, hinfinity ▸ hget⟩,
    ((hlaws v hv).outside 2 hcount.le).2 x, u, st₁, st₂, hallocate, hof, hbytes, hall⟩

end Vector128
