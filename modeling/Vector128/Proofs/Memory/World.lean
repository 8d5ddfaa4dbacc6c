/-
Buffers and views over time.

A `World` is a store with the views that were made of its buffers. Whoever holds them can do the following, in
any order (`Event`):
- make buffers and views, also several views of one buffer;
- detach buffers;
- read and write through a buffer or a view (`Access`), by bytes, by numbers and by elements;
- store vectors, and call functions with any values it holds (`World.Knows`).
A view is held only if it was made, so an event that names another one changes nothing.

Results:
- `Store.Touches`: an access and a store of a vector change nothing but bytes of the buffer they go to.
- `Builtin.alike_call`: no call changes how long a buffer is, or detaches one.
- `step_sound`, `Reachable.sound`: every view that was made lies inside its buffer and is aligned, in every
  world that events lead to.
- `World.Sound.live`: through such a view, and through a buffer, there are bytes to access unless the buffer
  is detached.
-/
import Vector128.Proofs.Memory.Bytes
import Vector128.Proofs.Memory.Region
import Vector128.Proofs.Packed.WellFormed

namespace Vector128

/-! ## Accesses -/

/-- what bytes are accessed through -/
inductive Handle
  | whole (id : Nat)
  | view (v : View)
  deriving DecidableEq, Repr

namespace Handle

def buffer : Handle → Nat
  | whole id => id
  | view v => v.buffer

def region : Handle → Region Store
  | whole id => Store.whole id
  | view v => v.region

def window : Handle → Window Store
  | whole id => Store.window id
  | view v => v.window

theorem shows_region (h : Handle) : h.region.Shows h.window := by
  cases h with
  | whole id => exact Store.shows_whole id
  | view v => exact v.shows_region

theorem shut_region {h : Handle} {st : Store} (hd : (st.buffer h.buffer).detached = true) : h.region.Shut st := by
  cases h with
  | whole id => exact Store.shut_whole hd
  | view v => exact View.shut_region hd

end Handle

inductive Reply
  | done
  | bytes (bytes : List UInt8)
  | int (n : Int)
  | single (x : Single)
  | double (x : Double)
  deriving DecidableEq

/-- an access to bytes through a handle, or to an element of a view -/
inductive Access
  | copyOut (h : Handle) (offset count : Nat)
  | copyIn (h : Handle) (offset : Nat) (bytes : List UInt8)
  | loadInt (h : Handle) (offset : Nat) (w : LaneWidth)
  | storeInt (h : Handle) (offset : Nat) (w : LaneWidth) (n : Int)
  | loadSingle (h : Handle) (offset : Nat)
  | storeSingle (h : Handle) (offset : Nat) (x : Single)
  | loadDouble (h : Handle) (offset : Nat)
  | storeDouble (h : Handle) (offset : Nat) (x : Double)
  | get (v : View) (index : Nat)
  | set (v : View) (index : Nat) (x : Double)

namespace Access

def handle : Access → Handle
  | copyOut h .. | copyIn h .. | loadInt h .. | storeInt h .. | loadSingle h _ | storeSingle h .. | loadDouble h _
  | storeDouble h .. => h
  | get v _ | set v .. => .view v

/-- the answer, and the store after the access -/
def run (st : Store) : Access → Outcome Reply × Store
  | copyOut h offset count => ((h.region.read st offset count).map .bytes, st)
  | copyIn h offset bytes => (h.region.write st offset bytes).map (Except.map fun () => .done) id
  | loadInt h offset w => ((h.region.readInt st offset (w.bits / 8)).map .int, st)
  | storeInt h offset w n => (h.region.writeInt st offset (w.bits / 8) n).map (Except.map fun () => .done) id
  | loadSingle h offset => ((h.region.readFloat st offset .single).map .single, st)
  | storeSingle h offset x => (h.region.writeFloat st offset x).map (Except.map fun () => .done) id
  | loadDouble h offset => ((h.region.readFloat st offset .double).map .double, st)
  | storeDouble h offset x => (h.region.writeFloat st offset x).map (Except.map fun () => .done) id
  | get v index => ((v.get st index).map .double, st)
  | set v index x => (v.set st index x).map (Except.map fun () => .done) id

end Access

/-! ## Worlds -/

structure World where
  store : Store
  /-- the views made so far -/
  views : List View
  deriving DecidableEq, Repr

namespace World

def empty : World := ⟨Store.empty, []⟩

/-- the values that can be held: vectors as operations make them, and views that were made -/
def Knows (w : World) : Value → Prop
  | .array v => v ∈ w.views
  | x => x.WellFormed

/-- the handles that can be held -/
def Holds (w : World) : Handle → Prop
  | .whole _ => True
  | .view v => v ∈ w.views

instance (w : World) (x : Value) : Decidable (w.Knows x) := by
  unfold Knows
  split <;> infer_instance

instance (w : World) (h : Handle) : Decidable (w.Holds h) := by
  unfold Holds
  split <;> infer_instance

end World

inductive Event
  | newBuffer (size : Nat)
  | bufferOf (bytes : List UInt8)
  | newArray (kind : ElementKind) (length : Nat)
  | arrayOf (kind : ElementKind) (elements : List Double)
  | viewOf (id : Nat) (kind : ElementKind) (start length : Nat)
  | detach (id : Nat)
  | access (a : Access)
  | storeVector (h : Handle) (offset : Nat) (v : Packed) (count : Nat)
  | call (cast : FloatCast) (b : Builtin) (s : Shape) (args : List Value)

namespace World

/-- One event. What is refused changes nothing, and there are no contents larger than can be allocated. -/
def step (w : World) : Event → World
  | .newBuffer size =>
    match w.store.allocate size with
    | .ok (_, st) => { w with store := st }
    | .error _ => w
  | .bufferOf bytes =>
    if bytes.length ≤ sizeLimit then { w with store := (w.store.addBuffer (Buffer.ofBytes bytes)).2 } else w
  | .newArray kind length =>
    match View.allocate w.store kind length with
    | .ok (v, st) => ⟨st, w.views ++ [v]⟩
    | .error _ => w
  | .arrayOf kind elements =>
    if elements.length * kind.size ≤ sizeLimit then
      let (v, st) := View.ofElements w.store kind elements
      ⟨st, w.views ++ [v]⟩
    else w
  | .viewOf id kind start length =>
    if id < w.store.buffers.length then
      match View.ofBuffer? w.store id kind start length with
      | some v => { w with views := w.views ++ [v] }
      | none => w
    else w
  | .detach id => { w with store := w.store.detach id }
  | .access a => if w.Holds a.handle then { w with store := (a.run w.store).2 } else w
  | .storeVector h offset v count =>
    if w.Holds h ∧ v.WellFormed then { w with store := (h.region.storeVector w.store offset v count).2 } else w
  | .call cast b s args => if ∀ x ∈ args, w.Knows x then { w with store := (b.call cast s w.store args).2 } else w

def run (w : World) (events : List Event) : World := events.foldl step w

/-- a world that events lead to -/
def Reachable (w : World) : Prop := ∃ events, empty.run events = w

/-- the invariant -/
structure Sound (w : World) : Prop where
  size : ∀ id, (w.store.buffer id).bytes.length ≤ sizeLimit
  known : ∀ v ∈ w.views, v.buffer < w.store.buffers.length
  aligned : ∀ v ∈ w.views, v.start % v.kind.size = 0
  inside : ∀ v ∈ w.views, v.start + v.length * v.kind.size ≤ (w.store.buffer v.buffer).bytes.length

end World

/-! ## What accesses leave alone -/

namespace Store

/-- the same buffers, of the same sizes, and the same ones detached -/
structure Alike (st st' : Store) : Prop where
  count : st'.buffers.length = st.buffers.length
  size : ∀ id, (st'.buffer id).bytes.length = (st.buffer id).bytes.length
  detached : ∀ id, (st'.buffer id).detached = (st.buffer id).detached

/-- besides, only bytes of one buffer differ -/
structure Touches (id : Nat) (st st' : Store) : Prop extends Alike st st' where
  others : ∀ id' ≠ id, st'.buffer id' = st.buffer id'

theorem Alike.refl (st : Store) : st.Alike st := ⟨rfl, fun _ => rfl, fun _ => rfl⟩

theorem Alike.trans {a b c : Store} (hab : a.Alike b) (hbc : b.Alike c) : a.Alike c where
  count := hbc.count.trans hab.count
  size id := (hbc.size id).trans (hab.size id)
  detached id := (hbc.detached id).trans (hab.detached id)

theorem Touches.refl (id : Nat) (st : Store) : Touches id st st := ⟨Alike.refl st, fun _ _ => rfl⟩

theorem Touches.trans {id : Nat} {a b c : Store} (hab : Touches id a b) (hbc : Touches id b c) : Touches id a c :=
  ⟨hab.toAlike.trans hbc.toAlike, fun id' h => (hbc.others id' h).trans (hab.others id' h)⟩

theorem touches_withBytes (st : Store) (id : Nat) {bytes : List UInt8}
    (h : bytes.length = (st.buffer id).bytes.length) :
    Touches id st (st.withBytes id bytes) := by
  by_cases hid : id < st.buffers.length
  · have hbuffer : ∀ id', (st.withBytes id bytes).buffer id' =
        if id' = id then { st.buffer id with bytes := bytes } else st.buffer id' := buffer_setBuffer hid _
    refine ⟨⟨List.length_set, fun id' => ?_, fun id' => ?_⟩, fun id' hne => ?_⟩
    · rw [hbuffer]
      split_ifs with he
      · rw [he, h]
      · rfl
    · rw [hbuffer]
      split_ifs with he
      · rw [he]
      · rfl
    · rw [hbuffer, if_neg hne]
  · rw [withBytes, setBuffer_of_le (not_lt.1 hid)]
    exact Touches.refl id st

theorem touches_write_whole (id : Nat) (st : Store) (offset : Nat) (new : List UInt8) :
    Touches id st ((whole id).write st offset new).2 := by
  cases hd : (st.buffer id).detached with
  | true =>
    rw [(shut_whole hd).write]
    exact Touches.refl id st
  | false =>
    have hlen : (Region.cells.write (st.buffer id).bytes offset new).2.length = (st.buffer id).bytes.length := by
      simp only [Region.cells]
      split_ifs
      · exact length_overwrite _ _ _
      · rfl
    simp only [whole, cells_of_attached hd]
    exact touches_withBytes st id hlen

end Store

open Store (Touches)

namespace Handle

variable (h : Handle) (st : Store) (offset : Nat)

theorem touches_write (new : List UInt8) : Touches h.buffer st (h.region.write st offset new).2 := by
  cases h with
  | whole id => exact Store.touches_write_whole id st offset new
  | view v =>
    simp only [region, View.region]
    split_ifs
    · exact Store.touches_write_whole v.buffer st _ new
    · exact Touches.refl _ st

theorem touches_storeLanes (s : Shape) (lanes : List Lane) :
    Touches h.buffer st (h.region.storeLanes s st offset lanes).2 := by
  induction lanes generalizing st offset with
  | nil => exact Touches.refl _ st
  | cons l rest ih =>
    have hw := h.touches_write st offset (s.encodeLane l)
    rw [Region.storeLanes]
    split
    · rename_i st' he
      rw [he] at hw
      exact hw.trans (ih st' _)
    · rename_i st' he
      rw [he] at hw
      exact hw

theorem touches_storeVector (v : Packed) (count : Nat) :
    Touches h.buffer st (h.region.storeVector st offset v count).2 := by
  rw [Region.storeVector]
  split
  · exact h.touches_storeLanes st offset _ _
  · exact Touches.refl _ st

end Handle

theorem Access.touches_run (a : Access) (st : Store) : Touches a.handle.buffer st (a.run st).2 := by
  cases a with
  | copyIn h offset bytes => exact h.touches_write st offset bytes
  | storeInt h offset w n => exact h.touches_write st offset _
  | storeSingle h offset x => exact h.touches_write st offset _
  | storeDouble h offset x => exact h.touches_write st offset _
  | set v index x =>
    simp only [Access.run, View.set, Prod.map_snd, id_eq]
    split_ifs
    · exact (Handle.view v).touches_write st _ _
    · exact Touches.refl _ st
  | _ => exact Touches.refl _ st

/-- only a store can change the store, and it does so through the region of its view -/
theorem Shape.store_snd (s : Shape) (st : Store) (target index x : Value) (count : Nat) :
    (s.store st target index x count).2 = st ∨
      ∃ v view offset, s.storePlan st target index x count = .ok (v, view, offset) ∧
        (s.store st target index x count).2 = (view.region.storeVector st offset v count).2 := by
  unfold Shape.store
  split
  · exact Or.inl rfl
  · rename_i v view offset hplan
    exact Or.inr ⟨v, view, offset, hplan, rfl⟩

theorem Shape.alike_store (s : Shape) (st : Store) (target index x : Value) (count : Nat) :
    st.Alike (s.store st target index x count).2 := by
  rcases s.store_snd st target index x count with h | ⟨v, view, offset, -, h⟩
  · rw [h]
    exact Store.Alike.refl st
  · rw [h]
    exact ((Handle.view view).touches_storeVector st offset v count).toAlike

theorem Builtin.alike_call (cast : FloatCast) (b : Builtin) (s : Shape) (st : Store) (args : List Value) :
    st.Alike (b.call cast s st args).2 := by
  cases b with
  | store amount =>
    simp only [call, dispatch]
    rcases padded (.store amount) args with _ | ⟨target, _ | ⟨index, _ | ⟨x, rest⟩⟩⟩
    · exact Store.Alike.refl st
    · exact Store.Alike.refl st
    · exact Store.Alike.refl st
    · exact s.alike_store st target index x _
  | _ => exact Store.Alike.refl st

/-! ## The invariant -/

theorem Buffer.byteLength_le (b : Buffer) : b.byteLength ≤ b.bytes.length := by
  unfold byteLength contents
  split_ifs
  · exact Nat.zero_le _
  · exact le_rfl

namespace World

theorem Sound.of_sizes {w : World} (h : w.Sound) {st : Store} (hc : st.buffers.length = w.store.buffers.length)
    (hs : ∀ id, (st.buffer id).bytes.length = (w.store.buffer id).bytes.length) :
    ({ w with store := st } : World).Sound where
  size id := hs id ▸ h.size id
  known v hv := hc ▸ h.known v hv
  aligned := h.aligned
  inside v hv := hs v.buffer ▸ h.inside v hv

theorem buffer_addBuffer (st : Store) (b : Buffer) (id : Nat) :
    (st.addBuffer b).2.buffer id = if id = st.buffers.length then b else st.buffer id := by
  simp only [Store.addBuffer, Store.buffer, List.getD_eq_getElem?_getD]
  rcases lt_trichotomy id st.buffers.length with h | h | h
  · rw [List.getElem?_append_left h, if_neg h.ne]
  · subst h
    simp
  · rw [if_neg h.ne', List.getElem?_eq_none h.le, List.getElem?_eq_none (by rw [List.length_append]; exact h)]

theorem Sound.addBuffer {w : World} (h : w.Sound) {b : Buffer} (hb : b.bytes.length ≤ sizeLimit) :
    ({ w with store := (w.store.addBuffer b).2 } : World).Sound where
  size id := by
    rw [buffer_addBuffer]
    split_ifs
    · exact hb
    · exact h.size id
  known v hv := by
    have := h.known v hv
    simp only [Store.addBuffer, List.length_append]
    omega
  aligned := h.aligned
  inside v hv := by
    rw [buffer_addBuffer, if_neg (h.known v hv).ne]
    exact h.inside v hv

theorem Sound.addView {w : World} (h : w.Sound) {v : View} (hk : v.buffer < w.store.buffers.length)
    (ha : v.start % v.kind.size = 0) (hi : v.start + v.length * v.kind.size ≤ (w.store.buffer v.buffer).bytes.length) :
    ({ w with views := w.views ++ [v] } : World).Sound where
  size := h.size
  known u hu := by
    rcases List.mem_append.1 hu with hu | hu
    · exact h.known u hu
    · exact List.mem_singleton.1 hu ▸ hk
  aligned u hu := by
    rcases List.mem_append.1 hu with hu | hu
    · exact h.aligned u hu
    · exact List.mem_singleton.1 hu ▸ ha
  inside u hu := by
    rcases List.mem_append.1 hu with hu | hu
    · exact h.inside u hu
    · exact List.mem_singleton.1 hu ▸ hi

/-- one more buffer and a view of all of it -/
theorem Sound.addArray {w : World} (h : w.Sound) {b : Buffer} (hb : b.bytes.length ≤ sizeLimit) {kind : ElementKind}
    {length : Nat} (hl : length * kind.size = b.bytes.length) :
    World.Sound ⟨(w.store.addBuffer b).2, w.views ++ [⟨w.store.buffers.length, kind, 0, length⟩]⟩ := by
  refine (h.addBuffer hb).addView ?_ (Nat.zero_mod _) ?_
  · simp only [Store.addBuffer, List.length_append, List.length_singleton]
    omega
  · rw [buffer_addBuffer, if_pos rfl, Nat.zero_add, hl]

theorem length_encode (kind : ElementKind) (x : Double) : (kind.encode x).length = kind.size := by
  cases kind <;> simp only [ElementKind.encode, ElementKind.size, Bytes.length_ofNat, Bytes.length_ofInt]

theorem length_ofElements (kind : ElementKind) (elements : List Double) :
    (elements.flatMap kind.encode).length = elements.length * kind.size := by
  rw [length_flatMap_of_forall fun x _ => length_encode kind x, Nat.mul_comm]

theorem step_sound {w : World} (h : w.Sound) (e : Event) : (w.step e).Sound := by
  cases e with
  | newBuffer size =>
    simp only [step, Store.allocate]
    split_ifs with hs
    · exact h
    · exact h.addBuffer (by simpa [Buffer.ofBytes] using hs)
  | bufferOf bytes =>
    simp only [step]
    split_ifs with hs
    · exact h.addBuffer hs
    · exact h
  | newArray kind length =>
    simp only [step, View.allocate, Store.allocate]
    split_ifs with hs
    · exact h
    · exact h.addArray (by simpa [Buffer.ofBytes] using hs) (by simp [Buffer.ofBytes])
  | arrayOf kind elements =>
    simp only [step]
    split_ifs with hs
    · have hl := length_ofElements kind elements
      exact h.addArray (b := Buffer.ofBytes (elements.flatMap kind.encode)) (hl.le.trans hs) hl.symm
    · exact h
  | viewOf id kind start length =>
    simp only [step]
    split_ifs with hid
    · have hle := (w.store.buffer id).byteLength_le
      split
      · rename_i v hv
        obtain ⟨rfl, ha, hi⟩ := (View.ofBuffer?_eq_some (hle.trans (h.size id))).1 hv
        exact h.addView hid ha (hi.trans hle)
      · exact h
    · exact h
  | detach id =>
    refine h.of_sizes List.length_set fun id' => ?_
    by_cases hid : id < w.store.buffers.length
    · rw [Store.detach, Store.buffer_setBuffer hid]
      split_ifs with he
      · rw [he, Buffer.detach, List.length_replicate]
      · rfl
    · rw [Store.detach, Store.setBuffer_of_le (not_lt.1 hid)]
  | access a =>
    simp only [step]
    split_ifs
    · have ha := a.touches_run w.store
      exact h.of_sizes ha.count ha.size
    · exact h
  | storeVector p offset v count =>
    simp only [step]
    split_ifs
    · have ha := p.touches_storeVector w.store offset v count
      exact h.of_sizes ha.count ha.size
    · exact h
  | call cast b s args =>
    simp only [step]
    split_ifs
    · have ha := b.alike_call cast s w.store args
      exact h.of_sizes ha.count ha.size
    · exact h

theorem empty_sound : empty.Sound where
  size id := by simp [empty, Store.empty, Store.buffer]
  known v hv := absurd hv List.not_mem_nil
  aligned v hv := absurd hv List.not_mem_nil
  inside v hv := absurd hv List.not_mem_nil

theorem run_sound {w : World} (h : w.Sound) (events : List Event) : (w.run events).Sound := by
  induction events generalizing w with
  | nil => exact h
  | cons e events ih => exact ih (step_sound h e)

/-- **Every view that was made is aligned and inside its buffer**, whatever happened since. -/
theorem Reachable.sound {w : World} (h : w.Reachable) : w.Sound := by
  obtain ⟨events, rfl⟩ := h
  exact run_sound empty_sound events

/-- a handle on a buffer that is not detached gives access to bytes -/
theorem Sound.live {w : World} (h : w.Sound) {p : Handle} (hp : w.Holds p)
    (hd : (w.store.buffer p.buffer).detached = false) : p.window.live w.store := by
  cases p with
  | whole id => exact ⟨hd, h.size id⟩
  | view v => exact ⟨⟨hd, h.size v.buffer⟩, h.inside v hp⟩

/-- and it still does after accesses -/
theorem Sound.live_of_alike {w : World} (h : w.Sound) {st : Store} (ha : w.store.Alike st) {p : Handle} (hp : w.Holds p)
    (hd : (w.store.buffer p.buffer).detached = false) : p.window.live st :=
  (h.of_sizes ha.count ha.size).live (w := { w with store := st }) hp ((ha.detached p.buffer).trans hd)

end World

end Vector128
