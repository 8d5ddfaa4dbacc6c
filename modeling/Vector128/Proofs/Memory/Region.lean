/-
Regions as plain lists of bytes.

A `Window` is a list of bytes that lies somewhere in a state: it can be taken out (`get`) and put back
(`put`), in the states where it is `live`. `Region.Shows p w` says that a region is no more and no less than a
window: a read or a write succeeds exactly if its last byte is in the list, where ends are compared as natural
numbers, and then it takes a slice out of the list, or puts one into it.

- `Region.shows_cells`, `Store.shows_whole`, `View.shows_region`: the three kinds of regions, each stacked on
  the one before. A view shows a part of what its buffer shows (`Window.part`).
- `Store.shut_whole`, `View.shut_region`: a detached buffer and its views are `Region.Shut`.
- `overwrite_eq_splice`: cells set one after another make up one splice.
- `slice_splice_block`, `slice_flatMap`: bytes in blocks of one size.
-/
import Mathlib.Tactic
import Vector128.Memory.View

namespace Vector128

/-! ## Slices -/

/-- the bytes from an offset on, `count` of them -/
def slice (bytes : List UInt8) (offset count : Nat) : List UInt8 := (bytes.drop offset).take count

/-- the bytes with those from an offset on replaced -/
def splice (bytes : List UInt8) (offset : Nat) (new : List UInt8) : List UInt8 :=
  bytes.take offset ++ new ++ bytes.drop (offset + new.length)

section Slices

variable {bytes new : List UInt8} {offset count : Nat}

theorem length_slice (h : offset + count ≤ bytes.length) : (slice bytes offset count).length = count := by
  rw [slice, List.length_take, List.length_drop]
  omega

theorem length_splice (h : offset + new.length ≤ bytes.length) : (splice bytes offset new).length = bytes.length := by
  simp only [splice, List.length_append, List.length_take, List.length_drop]
  omega

theorem getElem?_slice (bytes : List UInt8) (offset count k : Nat) :
    (slice bytes offset count)[k]? = if k < count then bytes[offset + k]? else none := by
  rw [slice, List.getElem?_take, List.getElem?_drop]

/-- a splice changes the bytes in its range and no others -/
theorem getElem?_splice (h : offset + new.length ≤ bytes.length) (k : Nat) :
    (splice bytes offset new)[k]? =
      if offset ≤ k ∧ k < offset + new.length then new[k - offset]? else bytes[k]? := by
  have htake : (bytes.take offset).length = offset := by
    rw [List.length_take]
    omega
  rw [splice, List.append_assoc]
  by_cases hlow : k < offset
  · rw [List.getElem?_append_left (by omega), List.getElem?_take_of_lt hlow, if_neg (by omega)]
  · rw [List.getElem?_append_right (by omega), htake]
    by_cases hhigh : k < offset + new.length
    · rw [List.getElem?_append_left (by omega), if_pos ⟨not_lt.1 hlow, hhigh⟩]
    · rw [List.getElem?_append_right (by omega), List.getElem?_drop, if_neg (by omega)]
      congr 1
      omega

theorem splice_nil (bytes : List UInt8) (offset : Nat) : splice bytes offset [] = bytes := by
  simp [splice]

theorem splice_all (h : new.length = bytes.length) : splice bytes 0 new = new := by
  simp [splice, h]

theorem splice_slice (h : offset + count ≤ bytes.length) : splice bytes offset (slice bytes offset count) = bytes := by
  have hl := length_slice h
  apply List.ext_getElem?
  intro k
  rw [getElem?_splice (by omega), getElem?_slice]
  split_ifs with hk hc
  · congr 1
    omega
  · omega
  · rfl

theorem slice_splice (h : offset + new.length ≤ bytes.length) :
    slice (splice bytes offset new) offset new.length = new := by
  apply List.ext_getElem?
  intro k
  rw [getElem?_slice, getElem?_splice h]
  split_ifs with hk hr
  · congr 1
    omega
  · omega
  · exact (List.getElem?_eq_none (by omega)).symm

theorem splice_splice {newer : List UInt8} (h : offset + new.length ≤ bytes.length) (hl : newer.length = new.length) :
    splice (splice bytes offset new) offset newer = splice bytes offset newer := by
  have hls := length_splice h
  apply List.ext_getElem?
  intro k
  rw [getElem?_splice (by omega), getElem?_splice h, getElem?_splice (by omega), hl]
  split_ifs <;> rfl

theorem splice_append {more : List UInt8} (h : offset + new.length + more.length ≤ bytes.length) :
    splice (splice bytes offset new) (offset + new.length) more = splice bytes offset (new ++ more) := by
  have hls : (splice bytes offset new).length = bytes.length := length_splice (by omega)
  apply List.ext_getElem?
  intro k
  rw [getElem?_splice (by omega), getElem?_splice (by omega), getElem?_splice (by rw [List.length_append]; omega),
    List.length_append]
  by_cases hin : offset ≤ k ∧ k < offset + (new.length + more.length)
  · rw [if_pos hin]
    by_cases hmore : offset + new.length ≤ k
    · rw [if_pos ⟨hmore, by omega⟩, List.getElem?_append_right (by omega)]
      congr 1
      omega
    · rw [if_neg (by omega), if_pos (by omega), List.getElem?_append_left (by omega)]
  · rw [if_neg hin, if_neg (by omega), if_neg (by omega)]

theorem slice_slice {base size : Nat} (h : offset + count ≤ size) :
    slice (slice bytes base size) offset count = slice bytes (base + offset) count := by
  apply List.ext_getElem?
  intro k
  rw [getElem?_slice, getElem?_slice, getElem?_slice]
  split_ifs
  · rw [add_assoc]
  · omega
  · rfl

/-- a splice of a slice, put back -/
theorem splice_splice_slice {base size : Nat} (hsize : base + size ≤ bytes.length) (h : offset + new.length ≤ size) :
    splice bytes base (splice (slice bytes base size) offset new) = splice bytes (base + offset) new := by
  have hs := length_slice hsize
  have hl : (splice (slice bytes base size) offset new).length = size := by rw [length_splice (by omega), hs]
  apply List.ext_getElem?
  intro k
  rw [getElem?_splice (by omega), getElem?_splice (by omega), getElem?_splice (by omega), getElem?_slice, hl]
  by_cases hin : base ≤ k ∧ k < base + size
  · rw [if_pos hin, if_pos (show k - base < size by omega), Nat.add_sub_cancel' hin.1]
    by_cases hnew : offset ≤ k - base ∧ k - base < offset + new.length
    · rw [if_pos hnew, if_pos (by omega), Nat.sub_sub]
    · rw [if_neg hnew, if_neg (by omega)]
  · rw [if_neg hin, if_neg (by omega)]

end Slices

section Blocks

variable {α : Type} {f : α → List UInt8} {row : List α} {bytes more new : List UInt8} {size count i : Nat}

theorem block_end_le (hi : i < count) : i * size + size ≤ count * size := by
  rw [← Nat.succ_mul]
  exact Nat.mul_le_mul_right size hi

/-- a block that is replaced leaves the others as they are -/
theorem slice_splice_block (hbytes : bytes.length = count * size) (hnew : new.length = size) (hi : i < count) (j : Nat) :
    slice (splice bytes (i * size) new) (j * size) size = if j = i then new else slice bytes (j * size) size := by
  have hend : i * size + size ≤ count * size := block_end_le hi
  split_ifs with hji
  · rw [hji, ← hnew, slice_splice (by rw [hnew, hbytes]; exact hend)]
  · apply List.ext_getElem?
    intro k
    have hapart : j * size + size ≤ i * size ∨ i * size + size ≤ j * size := by
      rcases Nat.lt_or_gt_of_ne hji with hlt | hgt
      · exact Or.inl (block_end_le hlt)
      · exact Or.inr (block_end_le hgt)
    rw [getElem?_slice, getElem?_slice, getElem?_splice (by omega)]
    split_ifs
    · omega
    · rfl
    · rfl

/-- lists of as many blocks are the same if the blocks are -/
theorem eq_of_blocks (hsize : 0 < size) (hbytes : bytes.length = count * size) (hmore : more.length = count * size)
    (h : ∀ j < count, slice bytes (j * size) size = slice more (j * size) size) : bytes = more := by
  apply List.ext_getElem?
  intro k
  rcases Nat.lt_or_ge k (count * size) with hk | hk
  · have hrow : k / size < count := (Nat.div_lt_iff_lt_mul hsize).2 hk
    have hblock := congrArg (·[k % size]?) (h _ hrow)
    have hplace : k / size * size + k % size = k := by rw [Nat.mul_comm, Nat.div_add_mod]
    simp only [getElem?_slice, if_pos (Nat.mod_lt k hsize), hplace] at hblock
    exact hblock
  · rw [List.getElem?_eq_none (hbytes ▸ hk), List.getElem?_eq_none (hmore ▸ hk)]

theorem length_flatMap_of_forall (h : ∀ a ∈ row, (f a).length = size) :
    (row.flatMap f).length = size * row.length := by
  induction row with
  | nil => rfl
  | cons a rest ih =>
    rw [List.flatMap_cons, List.length_append, h a List.mem_cons_self,
      ih fun b hb => h b (List.mem_cons_of_mem a hb), List.length_cons, Nat.mul_succ, Nat.add_comm]

theorem slice_flatMap (h : ∀ a ∈ row, (f a).length = size) {i : Nat} (hi : i < row.length) :
    slice (row.flatMap f) (i * size) size = f row[i] := by
  induction row generalizing i with
  | nil => exact absurd hi (Nat.not_lt_zero i)
  | cons a rest ih =>
    have ha : (f a).length = size := h a List.mem_cons_self
    cases i with
    | zero => simp [slice, ← ha]
    | succ i =>
      have hrest := ih (fun b hb => h b (List.mem_cons_of_mem a hb)) (Nat.lt_of_succ_lt_succ hi)
      rw [slice] at hrest ⊢
      rw [List.flatMap_cons, Nat.succ_mul, Nat.add_comm, ← List.drop_drop, ← ha, List.drop_left, ha, hrest]
      rfl

end Blocks

theorem sizeLimit_le_countLimit : sizeLimit ≤ countLimit := by decide

/-- below the largest count, the check of a range is the comparison of natural numbers -/
theorem within_iff {offset count limit : Nat} (h : limit ≤ sizeLimit) :
    within offset count limit = true ↔ offset + count ≤ limit := by
  unfold within sum?
  split_ifs with hc
  · exact decide_eq_true_iff
  · exact ⟨nofun, fun hle => absurd (hle.trans (h.trans sizeLimit_le_countLimit)) hc⟩

theorem ElementKind.size_pos (kind : ElementKind) : 0 < kind.size := by
  cases kind <;> decide

/-- so is the check of a view, whose size may be too large to count -/
theorem View.fits_iff {kind : ElementKind} {start length limit : Nat} (h : limit ≤ sizeLimit) :
    View.fits kind start length limit = true ↔ start + length * kind.size ≤ limit := by
  unfold View.fits product?
  split_ifs with hc
  · rw [within_iff h, Nat.add_comm]
  · refine ⟨nofun, fun hle => absurd (le_trans ?_ (hle.trans (h.trans sizeLimit_le_countLimit))) hc⟩
    exact Nat.le_add_left _ _

/-! ## Windows -/

/-- a list of bytes in a state -/
structure Window (σ : Type) where
  /-- the states in which the bytes can be accessed -/
  live : σ → Prop
  get : σ → List UInt8
  put : σ → List UInt8 → σ
  length_le : ∀ {st}, live st → (get st).length ≤ sizeLimit
  live_put : ∀ {st new}, live st → new.length = (get st).length → live (put st new)
  get_put : ∀ {st new}, live st → new.length = (get st).length → get (put st new) = new
  put_put : ∀ {st new newer}, live st → new.length = (get st).length → newer.length = new.length →
    put (put st new) newer = put st newer
  put_get : ∀ {st}, live st → put st (get st) = st

namespace Window

variable {σ : Type}

/-- the part of a window that starts at `base` and has `size` bytes -/
def part (w : Window σ) (base size : Nat) : Window σ where
  live st := w.live st ∧ base + size ≤ (w.get st).length
  get st := slice (w.get st) base size
  put st new := w.put st (splice (w.get st) base new)
  length_le h := by
    have := w.length_le h.1
    rw [length_slice h.2]
    omega
  live_put {st new} h hn := by
    rw [length_slice h.2] at hn
    have hl : (splice (w.get st) base new).length = (w.get st).length := length_splice (by omega)
    refine ⟨w.live_put h.1 hl, ?_⟩
    rw [w.get_put h.1 hl, hl]
    exact h.2
  get_put {st new} h hn := by
    rw [length_slice h.2] at hn
    rw [w.get_put h.1 (length_splice (by omega)), ← hn, slice_splice (by omega)]
  put_put {st new newer} h hn hm := by
    rw [length_slice h.2] at hn
    have hl : (splice (w.get st) base new).length = (w.get st).length := length_splice (by omega)
    rw [w.get_put h.1 hl, splice_splice (by omega) hm, w.put_put h.1 hl]
    rw [length_splice (by omega), hl]
  put_get {st} h := by rw [splice_slice h.2, w.put_get h.1]

end Window

/-- the region gives access to the window: to all of it, and to nothing else -/
structure Region.Shows {σ : Type} (p : Region σ) (w : Window σ) : Prop where
  byteLength : ∀ {st}, w.live st → p.byteLength st = (w.get st).length
  read_ok : ∀ {st offset count}, w.live st → offset + count ≤ (w.get st).length →
    p.read st offset count = .ok (slice (w.get st) offset count)
  read_error : ∀ {st offset count}, w.live st → (w.get st).length < offset + count →
    p.read st offset count = .error .outOfBounds
  write_ok : ∀ {st offset new}, w.live st → offset + new.length ≤ (w.get st).length →
    p.write st offset new = (.ok (), w.put st (splice (w.get st) offset new))
  write_error : ∀ {st offset new}, w.live st → (w.get st).length < offset + new.length →
    p.write st offset new = (.error .outOfBounds, st)

/-- the region has no bytes and refuses every access -/
structure Region.Shut {σ : Type} (p : Region σ) (st : σ) : Prop where
  byteLength : p.byteLength st = 0
  read : ∀ offset count, p.read st offset count = .error .outOfBounds
  write : ∀ offset new, p.write st offset new = (.error .outOfBounds, st)

theorem overwrite_eq_splice {cells new : List UInt8} {offset : Nat} (h : offset + new.length ≤ cells.length) :
    Region.overwrite cells offset new = splice cells offset new := by
  induction new generalizing cells offset with
  | nil => exact (splice_nil cells offset).symm
  | cons byte rest ih =>
    rw [List.length_cons] at h
    have hset : cells.set offset byte = splice cells offset [byte] := by
      simp [splice, List.set_eq_take_append_cons_drop, show offset < cells.length by omega]
    have happ : splice (splice cells offset [byte]) (offset + 1) rest = splice cells offset (byte :: rest) :=
      splice_append (by rw [List.length_singleton]; omega)
    rw [Region.overwrite, ih (by rw [List.length_set]; omega), hset, happ]

theorem length_overwrite (cells new : List UInt8) (offset : Nat) :
    (Region.overwrite cells offset new).length = cells.length := by
  induction new generalizing cells offset with
  | nil => rfl
  | cons byte rest ih => rw [Region.overwrite, ih, List.length_set]

def Window.cells : Window (List UInt8) where
  live row := row.length ≤ sizeLimit
  get row := row
  put _ new := new
  length_le h := h
  live_put h hn := hn ▸ h
  get_put _ _ := rfl
  put_put _ _ _ := rfl
  put_get _ := rfl

theorem Region.shows_cells : Region.cells.Shows Window.cells where
  byteLength _ := rfl
  read_ok h hfit := if_pos ((within_iff h).2 hfit)
  read_error h hout := if_neg (mt (within_iff h).1 (not_le.2 hout))
  write_ok h hfit :=
    (if_pos ((within_iff h).2 hfit)).trans (congrArg (Prod.mk (Except.ok ())) (overwrite_eq_splice hfit))
  write_error h hout := if_neg (mt (within_iff h).1 (not_le.2 hout))

/-! ## Buffers -/

namespace Store

variable {st : Store} {id : Nat}

theorem lt_of_attached (h : (st.buffer id).detached = false) : id < st.buffers.length := by
  by_contra hge
  rw [buffer, List.getD_eq_getElem?_getD, List.getElem?_eq_none (not_lt.1 hge)] at h
  cases h

theorem buffer_setBuffer (h : id < st.buffers.length) (b : Buffer) (id' : Nat) :
    (st.setBuffer id b).buffer id' = if id' = id then b else st.buffer id' := by
  simp only [buffer, setBuffer, List.getD_eq_getElem?_getD, List.getElem?_set]
  by_cases hid : id = id'
  · subst hid
    simp [h]
  · simp [hid, Ne.symm hid]

theorem setBuffer_setBuffer (b c : Buffer) : (st.setBuffer id b).setBuffer id c = st.setBuffer id c := by
  simp [setBuffer]

theorem setBuffer_buffer (h : id < st.buffers.length) : st.setBuffer id (st.buffer id) = st := by
  simp [setBuffer, buffer, h]

theorem setBuffer_of_le (h : st.buffers.length ≤ id) (b : Buffer) : st.setBuffer id b = st := by
  simp only [setBuffer, List.set_eq_of_length_le h]

def withBytes (st : Store) (id : Nat) (bytes : List UInt8) : Store :=
  st.setBuffer id { st.buffer id with bytes := bytes }

/-- the bytes of a buffer that is attached and of a size that can be allocated -/
def window (id : Nat) : Window Store where
  live st := (st.buffer id).detached = false ∧ (st.buffer id).bytes.length ≤ sizeLimit
  get st := (st.buffer id).bytes
  put st new := st.withBytes id new
  length_le h := h.2
  live_put {st new} h hn := by
    rw [withBytes, buffer_setBuffer (lt_of_attached h.1), if_pos rfl]
    exact ⟨h.1, hn ▸ h.2⟩
  get_put {st new} h _ := by rw [withBytes, buffer_setBuffer (lt_of_attached h.1), if_pos rfl]
  put_put {st new newer} h _ _ := by
    rw [withBytes, withBytes, buffer_setBuffer (lt_of_attached h.1), if_pos rfl, setBuffer_setBuffer, withBytes]
  put_get {st} h := setBuffer_buffer (lt_of_attached h.1)

theorem cells_of_attached (h : (st.buffer id).detached = false) : (st.buffer id).cells = .ok (st.buffer id).bytes := by
  simp [Buffer.cells, h]

theorem shows_whole (id : Nat) : (whole id).Shows (window id) where
  byteLength {st} h := by simp [whole, window, Buffer.byteLength, Buffer.contents, h.1]
  read_ok h hfit := by
    simp only [whole, cells_of_attached h.1]
    exact Region.shows_cells.read_ok h.2 hfit
  read_error h hout := by
    simp only [whole, cells_of_attached h.1]
    exact Region.shows_cells.read_error h.2 hout
  write_ok h hfit := by
    simp only [whole, cells_of_attached h.1, Region.shows_cells.write_ok h.2 hfit]
    rfl
  write_error h hout := by
    simp only [whole, cells_of_attached h.1, Region.shows_cells.write_error h.2 hout,
      setBuffer_buffer (lt_of_attached h.1)]

theorem shut_whole (h : (st.buffer id).detached = true) : (whole id).Shut st where
  byteLength := by simp [whole, Buffer.byteLength, Buffer.contents, h]
  read offset count := by
    simp only [whole, Buffer.cells, h, if_true]
    rfl
  write offset new := by simp only [whole, Buffer.cells, h, if_true]

end Store

/-! ## Views -/

namespace View

variable {v : View} {st : Store}

/-- the part of its buffer that a view shows -/
def window (v : View) : Window Store := (Store.window v.buffer).part v.start (v.length * v.kind.size)

theorem count_of_live (h : v.window.live st) : v.count st = v.length := by
  simp [count, isDetached, h.1.1]

theorem byteLength_of_attached (h : (st.buffer v.buffer).detached = false) :
    v.byteLength st = v.length * v.kind.size := by
  simp [byteLength, count, isDetached, h]

theorem length_window (h : v.window.live st) : (v.window.get st).length = v.length * v.kind.size := length_slice h.2

/-- the check of the view itself, whose length is what it shows -/
theorem within_byteLength (h : v.window.live st) {offset count : Nat} :
    within offset count (v.byteLength st) = true ↔ offset + count ≤ (v.window.get st).length := by
  rw [byteLength_of_attached h.1.1, length_window h]
  exact within_iff (length_window h ▸ v.window.length_le h)

/-- a view is made exactly if it is aligned and inside its buffer -/
theorem ofBuffer?_eq_some {id start length : Nat} {kind : ElementKind} (h : (st.buffer id).byteLength ≤ sizeLimit) :
    ofBuffer? st id kind start length = some v ↔ v = ⟨id, kind, start, length⟩ ∧ start % kind.size = 0 ∧
      start + length * kind.size ≤ (st.buffer id).byteLength := by
  unfold ofBuffer?
  simp only [fits_iff h]
  split_ifs with hfit
  · rw [Option.some.injEq]
    exact ⟨fun he => ⟨he.symm, hfit⟩, fun he => he.1.symm⟩
  · exact ⟨nofun, fun he => absurd he.2 hfit⟩

theorem shows_region (v : View) : v.region.Shows v.window where
  byteLength h := (byteLength_of_attached h.1.1).trans (length_window h).symm
  read_ok h hfit := by
    refine (if_pos ((within_byteLength h).2 hfit)).trans ?_
    rw [length_window h] at hfit
    rw [(Store.shows_whole v.buffer).read_ok h.1 (by have := h.2; omega)]
    exact congrArg Except.ok (slice_slice hfit).symm
  read_error h hout := if_neg (mt (within_byteLength h).1 (not_le.2 hout))
  write_ok {st _ _} h hfit := by
    refine (if_pos ((within_byteLength h).2 hfit)).trans ?_
    rw [length_window h] at hfit
    rw [(Store.shows_whole v.buffer).write_ok h.1 (by have := h.2; omega)]
    exact congrArg (fun bytes => (Except.ok (), st.withBytes v.buffer bytes)) (splice_splice_slice h.2 hfit).symm
  write_error h hout := if_neg (mt (within_byteLength h).1 (not_le.2 hout))

theorem shut_region (h : (st.buffer v.buffer).detached = true) : v.region.Shut st where
  byteLength := by simp [region, byteLength, count, isDetached, h]
  read offset count := by
    simp only [region, (Store.shut_whole h).read, ite_self]
  write offset new := by
    simp only [region, (Store.shut_whole h).write, ite_self]

end View

end Vector128
