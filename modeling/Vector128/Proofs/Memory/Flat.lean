/-
Buffers and views refine one flat list of bytes a buffer.

The specification knows no regions and no checks that could overflow. An access through a handle asks for
`Access.width` bytes at `Access.offset`. It is granted if they end within the handle's limit, as natural
numbers, and then it reads or replaces the bytes that lie at that offset from the handle's base in the flat
list (`Access.onFlat`). Numbers are digits in base 256, lowest first.

- `Access.run_eq_onFlat`: every access does just that, whichever of the three kinds of regions it goes
  through.
- `accesses_refine_flat`: so it does after any accesses through any handles that share the buffer, and each
  byte it finds is the last one that was written to its place.
-/
import Vector128.Proofs.Memory.World

namespace Vector128

/-! ## Specification -/

def unsigned (bytes : List UInt8) : Nat := Nat.ofDigits 256 (bytes.map UInt8.toNat)

def signed (bytes : List UInt8) : Int := (unsigned bytes : Int).bmod (256 ^ bytes.length)

def digits (count : Nat) (n : Int) : List UInt8 :=
  (List.range count).map fun i => UInt8.ofNat (n / (256 ^ i : Nat) % 256).toNat

namespace ElementKind

/-- the integer whose digits are stored for an element -/
def stored (kind : ElementKind) (x : Double) : Int :=
  match kind with
  | int8 => Number.toSigned 8 x
  | uint8 => Number.toUnsigned 8 x
  | uint8Clamped => clampedByte x
  | int16 => Number.toSigned 16 x
  | uint16 => Number.toUnsigned 16 x
  | int32 => Number.toSigned 32 x
  | uint32 => Number.toUnsigned 32 x
  | float32 => (x.convert : Single).toBits
  | float64 => x.toBits

/-- the Number that is loaded from an element's bytes -/
def loaded (kind : ElementKind) (bytes : List UInt8) : Double :=
  match kind with
  | int8 | int16 | int32 => Binary.ofInt (signed bytes)
  | uint8 | uint8Clamped | uint16 | uint32 => Binary.ofNat (unsigned bytes)
  | float32 => (Binary.ofBits (unsigned bytes) : Single).convert
  | float64 => Binary.ofBits (unsigned bytes)

end ElementKind

namespace Handle

/-- the place of the handle's first byte in the buffer -/
def base (st : Store) : Handle → Nat
  | whole _ => 0
  | view v => v.byteOffset st

/-- the number of bytes that the handle reports -/
def limit (st : Store) (h : Handle) : Nat := h.region.byteLength st

end Handle

/-- what an access does with the bytes it asks for -/
inductive Effect
  | read (count : Nat) (answer : List UInt8 → Reply)
  | write (bytes : List UInt8)

namespace Access

/-- where the bytes start, counted from the handle's base -/
def offset : Access → Nat
  | copyOut _ offset _ | copyIn _ offset _ | loadInt _ offset _ | storeInt _ offset _ _ | loadSingle _ offset
  | storeSingle _ offset _ | loadDouble _ offset | storeDouble _ offset _ => offset
  | get v index | set v index _ => index * v.kind.size

def effect : Access → Effect
  | copyOut _ _ count => .read count .bytes
  | copyIn _ _ bytes => .write bytes
  | loadInt _ _ w => .read (w.bits / 8) fun bytes => .int (signed bytes)
  | storeInt _ _ w n => .write (digits (w.bits / 8) n)
  | loadSingle _ _ => .read 4 fun bytes => .single (Binary.ofBits (unsigned bytes))
  | storeSingle _ _ x => .write (digits 4 x.toBits)
  | loadDouble _ _ => .read 8 fun bytes => .double (Binary.ofBits (unsigned bytes))
  | storeDouble _ _ x => .write (digits 8 x.toBits)
  | get v _ => .read v.kind.size fun bytes => .double (v.kind.loaded bytes)
  | set v _ x => .write (digits v.kind.size (v.kind.stored x))

def width (a : Access) : Nat :=
  match a.effect with
  | .read count _ => count
  | .write bytes => bytes.length

/-- the access on the flat list of its buffer: the answer, and the bytes after it -/
def onFlat (a : Access) (base limit : Nat) (flat : List UInt8) : Outcome Reply × List UInt8 :=
  if a.offset + a.width ≤ limit then
    match a.effect with
    | .read count answer => (.ok (answer (slice flat (base + a.offset) count)), flat)
    | .write bytes => (.ok .done, splice flat (base + a.offset) bytes)
  else (.error .outOfBounds, flat)

def runAll (st : Store) (accesses : List Access) : Store := accesses.foldl (fun st a => (a.run st).2) st

end Access

/-- the bytes that an access writes to a buffer, with their place in it, if it is granted -/
def World.written (w : World) (id : Nat) (a : Access) : Option (Nat × List UInt8) :=
  match a.effect with
  | .read .. => none
  | .write bytes =>
    if a.handle.buffer = id ∧ a.offset + a.width ≤ a.handle.limit w.store then
      some (a.handle.base w.store + a.offset, bytes)
    else none

/-- the byte that a write puts in a place -/
def byteAt (place : Nat) (write : Nat × List UInt8) : Option UInt8 :=
  if write.1 ≤ place then write.2[place - write.1]? else none

/-- the byte that the last write to a place has put there -/
def lastByte (log : List (Nat × List UInt8)) (place : Nat) : Option UInt8 := log.reverse.findSome? (byteAt place)

theorem length_digits (count : Nat) (n : Int) : (digits count n).length = count := by
  rw [digits, List.length_map, List.length_range]

theorem toInt_eq_signed (bytes : List UInt8) : Bytes.toInt bytes = signed bytes := by
  rw [Bytes.toInt_eq, Bytes.toNat_eq_ofDigits, signed, unsigned]

theorem ofNat_eq_digits (count n : Nat) : Bytes.ofNat count n = digits count n := by
  apply List.ext_getElem
  · rw [Bytes.length_ofNat, length_digits]
  · intro i hi _
    have hcast : ((n : Int) / (256 ^ i : Nat) % 256).toNat = n / 256 ^ i % 256 := by
      rw [← Int.natCast_div]
      exact Int.toNat_natCast _
    simp only [Bytes.getElem_ofNat hi, digits, List.getElem_map, List.getElem_range, hcast]
    apply UInt8.toNat_inj.1
    simp

theorem ofInt_eq_digits (count : Nat) (n : Int) : Bytes.ofInt count n = digits count n := by
  rw [Bytes.ofInt_eq, ofNat_eq_digits, digits, digits]
  apply List.map_congr_left
  intro i hi
  obtain ⟨d, rfl⟩ := Nat.exists_eq_add_of_lt (List.mem_range.1 hi)
  have hpos : (0 : Int) < (256 ^ i : Nat) := by positivity
  have hsplit : n % (256 ^ (i + d + 1) : Nat) =
      n + (256 ^ i : Nat) * (-((256 ^ d : Nat) * (n / (256 ^ (i + d + 1) : Nat))) * 256) := by
    rw [Int.emod_def]
    push_cast
    ring
  have hdigit : n % (256 ^ (i + d + 1) : Nat) / (256 ^ i : Nat) % 256 = n / (256 ^ i : Nat) % 256 := by
    rw [hsplit, Int.add_mul_ediv_left _ _ hpos.ne', Int.add_mul_emod_self_right]
  rw [Bytes.cast_toNat_emod, hdigit]

theorem ElementKind.encode_eq_digits (kind : ElementKind) (x : Double) :
    kind.encode x = digits kind.size (kind.stored x) := by
  cases kind with
  | int8 | int16 | int32 => exact ofInt_eq_digits _ _
  | _ => exact ofNat_eq_digits _ _

theorem ElementKind.decode_eq_loaded (kind : ElementKind) : kind.decode = kind.loaded := by
  funext bytes
  have hsigned := toInt_eq_signed bytes
  have hunsigned : Bytes.toNat bytes = unsigned bytes := Bytes.toNat_eq_ofDigits bytes
  cases kind with
  | int8 | int16 | int32 => exact congrArg Binary.ofInt hsigned
  | uint8 | uint8Clamped | uint16 | uint32 =>
    rw [decode, Bytes.ofInt_toInt]
    exact congrArg Binary.ofNat hunsigned
  | float32 => exact congrArg (fun n => (Binary.ofBits n : Single).convert) hunsigned
  | float64 => exact congrArg Binary.ofBits hunsigned

/-! ## Handles -/

namespace Handle

variable {h : Handle} {st st' : Store} {offset : Nat}

theorem base_alike (ha : st.Alike st') : h.base st' = h.base st := by
  cases h with
  | whole id => rfl
  | view v => rw [base, base, View.byteOffset, View.byteOffset, View.isDetached, View.isDetached, ha.detached]

theorem limit_alike (ha : st.Alike st') : h.limit st' = h.limit st := by
  cases h with
  | whole id =>
    have hd := ha.detached id
    have hs := ha.size id
    simp only [limit, region, Store.whole, Buffer.byteLength, Buffer.contents, hd]
    split_ifs
    · rfl
    · exact hs
  | view v =>
    have hc : v.count st' = v.count st := by
      rw [View.count, View.count, View.isDetached, View.isDetached, ha.detached]
    simp only [limit, region, View.region, View.byteLength, hc]

theorem limit_eq (hl : h.window.live st) : h.limit st = (h.window.get st).length := h.shows_region.byteLength hl

/-- the window of a handle in the flat list -/
theorem window_get (hl : h.window.live st) :
    h.window.get st = slice (st.buffer h.buffer).bytes (h.base st) (h.limit st) := by
  rw [limit_eq hl]
  cases h with
  | whole id => simp [window, Store.window, slice, base, buffer]
  | view v =>
    have hb : v.byteOffset st = v.start := by simp [View.byteOffset, View.isDetached, hl.1.1]
    simp only [window, buffer, base, hb, View.length_window hl]
    rfl

theorem base_add_limit_le (hl : h.window.live st) : h.base st + h.limit st ≤ (st.buffer h.buffer).bytes.length := by
  rw [limit_eq hl]
  cases h with
  | whole id => simp [window, Store.window, base, buffer]
  | view v =>
    have hb : v.byteOffset st = v.start := by simp [View.byteOffset, View.isDetached, hl.1.1]
    simp only [window, buffer, base, hb, View.length_window hl]
    exact hl.2

theorem window_put (hl : h.window.live st) {new : List UInt8} (hfit : offset + new.length ≤ h.limit st) :
    h.window.put st (splice (h.window.get st) offset new) =
      st.withBytes h.buffer (splice (st.buffer h.buffer).bytes (h.base st + offset) new) := by
  have hlen : (splice (h.window.get st) offset new).length = (h.window.get st).length :=
    length_splice (limit_eq hl ▸ hfit)
  rw [← splice_splice_slice (base_add_limit_le hl) hfit, ← window_get hl]
  cases h with
  | whole id => exact congrArg (st.withBytes id) (splice_all hlen).symm
  | view v =>
    have hb : v.byteOffset st = v.start := by simp [View.byteOffset, View.isDetached, hl.1.1]
    simp only [base, hb]
    rfl

theorem read_flat (hl : h.window.live st) (offset count : Nat) : h.region.read st offset count =
    if offset + count ≤ h.limit st then .ok (slice (st.buffer h.buffer).bytes (h.base st + offset) count)
    else .error .outOfBounds := by
  split_ifs with hfit
  · rw [h.shows_region.read_ok hl (limit_eq hl ▸ hfit), window_get hl, slice_slice hfit]
  · exact h.shows_region.read_error hl (limit_eq hl ▸ not_le.1 hfit)

theorem write_flat (hl : h.window.live st) (offset : Nat) (new : List UInt8) : h.region.write st offset new =
    if offset + new.length ≤ h.limit st then
      (.ok (), st.withBytes h.buffer (splice (st.buffer h.buffer).bytes (h.base st + offset) new))
    else (.error .outOfBounds, st) := by
  split_ifs with hfit
  · rw [h.shows_region.write_ok hl (limit_eq hl ▸ hfit), window_put hl hfit]
  · exact h.shows_region.write_error hl (limit_eq hl ▸ not_le.1 hfit)

theorem attached_of_live (hl : h.window.live st) : (st.buffer h.buffer).detached = false := by
  cases h with
  | whole id => exact hl.1
  | view v => exact hl.1.1

end Handle

/-! ## Accesses -/

namespace Access

variable {a : Access} {st : Store}

theorem lt_length_iff {index length size : Nat} (h : 0 < size) :
    index < length ↔ index * size + size ≤ length * size := by
  rw [← Nat.succ_mul, Nat.mul_le_mul_right_iff h, Nat.succ_le_iff]

/-- an access is one read or one write of the region -/
theorem run_eq_effect (hl : a.handle.window.live st) : a.run st =
    match a.effect with
    | .read count answer => ((a.handle.region.read st a.offset count).map answer, st)
    | .write bytes => (a.handle.region.write st a.offset bytes).map (Except.map fun () => .done) id := by
  have hsigned : Bytes.toInt = signed := funext toInt_eq_signed
  have hunsigned : Bytes.toNat = unsigned := funext Bytes.toNat_eq_ofDigits
  cases a with
  | copyOut h offset count => rfl
  | copyIn h offset bytes => rfl
  | loadInt h offset w =>
    simp only [run, Region.readInt, hsigned, effect, handle, Access.offset]
    exact congrArg (·, st) (Outcome.map_map _ _ _)
  | storeInt h offset w n =>
    simp only [run, Region.writeInt, ofInt_eq_digits, effect, handle, Access.offset]
  | loadSingle h offset =>
    simp only [run, Region.readFloat, hunsigned, effect, handle, Access.offset]
    exact congrArg (·, st) (Outcome.map_map _ _ _)
  | storeSingle h offset x =>
    simp only [run, Region.writeFloat, ofNat_eq_digits, effect, handle, Access.offset]
    rfl
  | loadDouble h offset =>
    simp only [run, Region.readFloat, hunsigned, effect, handle, Access.offset]
    exact congrArg (·, st) (Outcome.map_map _ _ _)
  | storeDouble h offset x =>
    simp only [run, Region.writeFloat, ofNat_eq_digits, effect, handle, Access.offset]
    rfl
  | get v index =>
    simp only [run, View.get, ElementKind.decode_eq_loaded, effect, handle, Access.offset, View.count_of_live hl,
      lt_length_iff (v.kind.size_pos)]
    split_ifs with hin
    · exact congrArg (·, st) (Outcome.map_map _ _ _)
    · have hout : (v.window.get st).length < index * v.kind.size + v.kind.size := View.length_window hl ▸ not_le.1 hin
      simp only [Handle.region, v.shows_region.read_error hl hout]
      rfl
  | set v index x =>
    simp only [run, View.set, ElementKind.encode_eq_digits, effect, handle, Access.offset, View.count_of_live hl,
      lt_length_iff (v.kind.size_pos)]
    split_ifs with hin
    · rfl
    · have hout : (v.window.get st).length < index * v.kind.size + (digits v.kind.size (v.kind.stored x)).length := by
        rw [length_digits, View.length_window hl]
        exact not_le.1 hin
      simp only [Handle.region, v.shows_region.write_error hl hout]

/-- **An access acts on the flat list of its buffer**, and on nothing else. -/
theorem run_eq_onFlat (hl : a.handle.window.live st) : a.run st =
    ((a.onFlat (a.handle.base st) (a.handle.limit st) (st.buffer a.handle.buffer).bytes).1,
      st.withBytes a.handle.buffer
        (a.onFlat (a.handle.base st) (a.handle.limit st) (st.buffer a.handle.buffer).bytes).2) := by
  have hsame : st.withBytes a.handle.buffer (st.buffer a.handle.buffer).bytes = st :=
    Store.setBuffer_buffer (Store.lt_of_attached (Handle.attached_of_live hl))
  rw [run_eq_effect hl, onFlat, width]
  cases a.effect with
  | read count answer =>
    simp only [Handle.read_flat hl]
    split_ifs
    · rw [hsame]
      rfl
    · rw [hsame]
      rfl
  | write bytes =>
    simp only [Handle.write_flat hl]
    split_ifs
    · rfl
    · rw [hsame]
      rfl

/-- what the buffer holds after an access -/
theorem bytes_run (hl : a.handle.window.live st) : ((a.run st).2.buffer a.handle.buffer).bytes =
    (a.onFlat (a.handle.base st) (a.handle.limit st) (st.buffer a.handle.buffer).bytes).2 := by
  rw [run_eq_onFlat hl, Store.withBytes, Store.buffer_setBuffer (Store.lt_of_attached (Handle.attached_of_live hl)),
    if_pos rfl]

theorem onFlat_ok_iff (a : Access) {base limit : Nat} {flat : List UInt8} :
    (∃ reply, (a.onFlat base limit flat).1 = .ok reply) ↔ a.offset + a.width ≤ limit := by
  rw [onFlat]
  split_ifs with hfit
  · refine iff_of_true ?_ hfit
    cases a.effect with
    | read count answer => exact ⟨_, rfl⟩
    | write bytes => exact ⟨_, rfl⟩
  · exact iff_of_false (fun ⟨reply, h⟩ => nomatch h) hfit

/-- outside of the range asked for nothing changes -/
theorem onFlat_outside (a : Access) {base limit : Nat} {flat : List UInt8} (hend : base + limit ≤ flat.length) {k : Nat}
    (hk : k < base + a.offset ∨ base + a.offset + a.width ≤ k) : (a.onFlat base limit flat).2[k]? = flat[k]? := by
  rw [onFlat]
  split_ifs with hfit
  · cases he : a.effect with
    | read count answer => rfl
    | write bytes =>
      rw [width, he] at hfit hk
      simp only at hfit hk
      rw [getElem?_splice (by omega), if_neg (by omega)]
  · rfl

/-! ## Runs -/

theorem runAll_append_singleton (st : Store) (accesses : List Access) (a : Access) :
    runAll st (accesses ++ [a]) = (a.run (runAll st accesses)).2 := by
  simp [runAll, List.foldl_append]

theorem alike_runAll (st : Store) (accesses : List Access) : st.Alike (runAll st accesses) := by
  induction accesses generalizing st with
  | nil => exact Store.Alike.refl st
  | cons a rest ih => exact (a.touches_run st).toAlike.trans (ih (a.run st).2)

end Access

theorem lastByte_append_singleton (log : List (Nat × List UInt8)) (write : Nat × List UInt8) (place : Nat) :
    lastByte (log ++ [write]) place = (byteAt place write).or (lastByte log place) := by
  rw [lastByte, List.reverse_append, List.reverse_singleton, List.singleton_append, List.findSome?_cons]
  cases byteAt place write <;> rfl

/-- the step: an access that is granted a write adds it to the log, and no other changes a byte -/
theorem World.bytes_run {w : World} (hw : w.Sound) {st : Store} (ha : w.store.Alike st) {a : Access}
    (hk : w.Holds a.handle) {id : Nat} (hid : (w.store.buffer id).detached = false) {log : List (Nat × List UInt8)}
    (hlog : ∀ k : Nat, (st.buffer id).bytes[k]? = (lastByte log k).or (w.store.buffer id).bytes[k]?) (k : Nat) :
    ((a.run st).2.buffer id).bytes[k]? =
      (lastByte (log ++ (w.written id a).toList) k).or (w.store.buffer id).bytes[k]? := by
  by_cases hb : a.handle.buffer = id
  · subst hb
    have hl := hw.live_of_alike ha hk hid
    have hbase : a.handle.base st = a.handle.base w.store := Handle.base_alike ha
    have hlimit : a.handle.limit st = a.handle.limit w.store := Handle.limit_alike ha
    have hend := Handle.base_add_limit_le hl
    rw [a.bytes_run hl, Access.onFlat, hbase, hlimit, World.written]
    rw [hbase, hlimit] at hend
    cases he : a.effect with
    | read count answer =>
      simp only [Option.toList_none, List.append_nil]
      split_ifs <;> exact hlog k
    | write bytes =>
      have hwidth : a.width = bytes.length := by rw [Access.width, he]
      simp only [true_and, hwidth]
      split_ifs with hfit
      · rw [Option.toList_some, lastByte_append_singleton, getElem?_splice (by omega), hlog k, byteAt]
        by_cases hin : a.handle.base w.store + a.offset ≤ k ∧ k < a.handle.base w.store + a.offset + bytes.length
        · rw [if_pos hin, if_pos hin.1, List.getElem?_eq_getElem (l := bytes) (by omega)]
          rfl
        · rw [if_neg hin]
          split_ifs with hle
          · rw [List.getElem?_eq_none (l := bytes) (by omega)]
            rfl
          · rfl
      · rw [Option.toList_none, List.append_nil]
        exact hlog k
  · have hnone : w.written id a = none := by
      rw [World.written]
      split
      · rfl
      · exact if_neg fun h => hb h.1
    rw [(a.touches_run st).others id (Ne.symm hb), hnone, Option.toList_none, List.append_nil]
    exact hlog k

/-- the run: every byte is the last one written to its place, or the one that was there before -/
theorem World.bytes_runAll {w : World} (hw : w.Sound) {accesses : List Access} (hk : ∀ a ∈ accesses, w.Holds a.handle)
    {id : Nat} (hid : (w.store.buffer id).detached = false) (k : Nat) :
    ((Access.runAll w.store accesses).buffer id).bytes[k]? =
      (lastByte (accesses.filterMap (w.written id)) k).or (w.store.buffer id).bytes[k]? := by
  induction accesses using List.reverseRecOn generalizing k with
  | nil => rfl
  | append_singleton accesses a ih =>
    have hfilter : (accesses ++ [a]).filterMap (w.written id) =
        accesses.filterMap (w.written id) ++ (w.written id a).toList := by
      rw [List.filterMap_append, List.filterMap_cons, List.filterMap_nil]
      cases w.written id a <;> rfl
    rw [Access.runAll_append_singleton, hfilter]
    exact World.bytes_run hw (Access.alike_runAll _ _) (hk a (by simp)) hid
      (ih fun b hb => hk b (List.mem_append_left _ hb)) k

/-- **Buffers and views refine one flat list of bytes.** Take any reachable world and let any accesses happen,
through any handles that are held; then, for a buffer that is not detached:
- each of its bytes is the last one that an access wrote to that place, by whichever handle, or else the one
  before;
- the next access through any handle on it is granted exactly if its last byte is within the limit of the
  handle, and acts on the bytes at its offset from the base of the handle;
- it changes no byte outside of that range, and none of another buffer. -/
theorem accesses_refine_flat {w : World} (hw : w.Reachable) {accesses : List Access}
    (hk : ∀ a ∈ accesses, w.Holds a.handle) {id : Nat} (hid : (w.store.buffer id).detached = false) :
    let st := Access.runAll w.store accesses
    (∀ k : Nat, (st.buffer id).bytes[k]? =
      (lastByte (accesses.filterMap (w.written id)) k).or (w.store.buffer id).bytes[k]?) ∧
    ∀ a : Access, w.Holds a.handle → a.handle.buffer = id →
      ((∃ reply, (a.run st).1 = .ok reply) ↔ a.offset + a.width ≤ a.handle.limit w.store) ∧
      a.run st = ((a.onFlat (a.handle.base w.store) (a.handle.limit w.store) (st.buffer id).bytes).1,
        st.withBytes id (a.onFlat (a.handle.base w.store) (a.handle.limit w.store) (st.buffer id).bytes).2) ∧
      (∀ k : Nat, k < a.handle.base w.store + a.offset ∨ a.handle.base w.store + a.offset + a.width ≤ k →
        ((a.run st).2.buffer id).bytes[k]? = (st.buffer id).bytes[k]?) ∧
      ∀ id' ≠ id, (a.run st).2.buffer id' = st.buffer id' := by
  intro st
  have halike : w.store.Alike st := Access.alike_runAll w.store accesses
  refine ⟨fun k => World.bytes_runAll hw.sound hk hid k, fun a ha hb => ?_⟩
  subst hb
  have hl := hw.sound.live_of_alike halike ha hid
  have hrun := Access.run_eq_onFlat hl
  rw [Handle.base_alike halike, Handle.limit_alike halike] at hrun
  refine ⟨?_, hrun, fun k hk => ?_, (a.touches_run _).others⟩
  · rw [hrun]
    exact a.onFlat_ok_iff
  · rw [a.bytes_run hl, Handle.base_alike halike, Handle.limit_alike halike]
    have hend := Handle.base_add_limit_le hl
    rw [Handle.base_alike halike, Handle.limit_alike halike] at hend
    exact a.onFlat_outside hend hk

/-- -2 written through a view of 16-bit integers, its high byte then through the buffer, both read at an odd
place -/
theorem accesses_refine_flat_shared :
    let v : View := ⟨0, .int16, 2, 3⟩
    let w := World.empty.run [.newBuffer 8, .viewOf 0 .int16 2 3]
    let accesses : List Access := [.storeInt (.view v) 1 .w16 (-2), .copyIn (.whole 0) 4 [7]]
    (∀ a ∈ accesses, w.Holds a.handle) ∧ (w.store.buffer 0).detached = false ∧
      ((Access.loadInt (.whole 0) 3 .w16).run (Access.runAll w.store accesses)).1 = .ok (.int 0x7FE) := by
  intro v w accesses
  have hw : w.Reachable := ⟨_, rfl⟩
  have hk : ∀ a ∈ accesses, w.Holds a.handle := by decide
  have hd : (w.store.buffer 0).detached = false := by decide
  have hrun := ((accesses_refine_flat hw hk hd).2 (.loadInt (.whole 0) 3 .w16) trivial rfl).2.1
  exact ⟨hk, hd, (congrArg Prod.fst hrun).trans (by decide)⟩

end Vector128
