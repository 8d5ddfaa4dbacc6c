/-
Writes happen as a whole or not at all, and go nowhere else.

A store of a vector writes lane by lane, and every one of these writes can be refused. That it leaves no
half-written vector rests on the check before the first of them, on views lying inside their buffers, and on a
detached buffer showing no bytes, so that nothing but no lanes at all passes the check.

- `Shape.locate_eq_ok`: an element index and the size of an element give the exact byte offset, although it is
  computed with Numbers.
- `Region.Atomic`, `Handle.atomic`: no write that is refused changes the state, through whatever handle.
- `World.Framed`, `reachable_framed`: the statement for everything that scripts and hosts can do, in every
  reachable world.
-/
import Vector128.Proofs.Memory.Flat
import Vector128.Proofs.Memory.Image
import Vector128.Proofs.Number.Index

namespace Vector128

open Outcome

/-- the element that a value names, if it is an index -/
def Value.elementIndex? (x : Value) : Option Nat :=
  match x.toNumber with
  | .ok n => Number.index? n
  | .error _ => none

theorem ElementKind.size_eq_pow (kind : ElementKind) : ∃ e < 53, kind.size = 2 ^ e := by
  cases kind with
  | int8 => exact ⟨0, by decide, rfl⟩
  | uint8 => exact ⟨0, by decide, rfl⟩
  | uint8Clamped => exact ⟨0, by decide, rfl⟩
  | int16 => exact ⟨1, by decide, rfl⟩
  | uint16 => exact ⟨1, by decide, rfl⟩
  | int32 => exact ⟨2, by decide, rfl⟩
  | uint32 => exact ⟨2, by decide, rfl⟩
  | float32 => exact ⟨2, by decide, rfl⟩
  | float64 => exact ⟨3, by decide, rfl⟩

/-- the place that was located: an attached view, and the byte offset of the element in it -/
theorem Shape.locate_eq_ok {s : Shape} {st : Store} {target index : Value} {count : Nat} {view : View} {offset : Nat}
    (h : s.locate st target index count = .ok (view, offset)) :
    target = .array view ∧ view.isDetached st = false ∧
      ∃ k, index.elementIndex? = some k ∧ offset = k * view.kind.size := by
  unfold locate at h
  split at h
  · rename_i v
    dsimp only at h
    cases hdet : v.isDetached st with
    | true =>
      rw [hdet] at h
      cases h
    | false =>
      rw [hdet] at h
      obtain ⟨n, hn, h⟩ := bind_eq_ok.1 h
      split at h
      · cases h
      · rename_i k hk
        split_ifs at h
        · cases h
        · obtain ⟨rfl, rfl⟩ := Prod.mk.inj (pure_eq_ok.1 h)
          obtain ⟨e, he, hsize⟩ := v.kind.size_eq_pow
          refine ⟨rfl, hdet, k, ?_, ?_⟩
          · rw [Value.elementIndex?, hn]
            exact hk
          · have hoffset := Number.denotes_mul_pow (Number.index?_lt hk) he
            rw [hsize, Number.integerPart_of_denotes hoffset, Int.toNat_natCast]
  · cases h

/-! ## Regions -/

/-- no write that is refused changes the state, of however many lanes it may be -/
structure Region.Atomic {σ : Type} (p : Region σ) (st : σ) : Prop where
  write : ∀ {offset : Nat} {bytes : List UInt8} {fault : Fault},
    (p.write st offset bytes).1 = .error fault → (p.write st offset bytes).2 = st
  writeInt : ∀ {offset count : Nat} {n : Int} {fault : Fault},
    (p.writeInt st offset count n).1 = .error fault → (p.writeInt st offset count n).2 = st
  writeFloat : ∀ {offset : Nat} {f : Format} {x : Binary f} {fault : Fault},
    (p.writeFloat st offset x).1 = .error fault → (p.writeFloat st offset x).2 = st
  storeVector : ∀ {offset count : Nat} {v : Packed} {fault : Fault}, v.WellFormed →
    (p.storeVector st offset v count).1 = .error fault → (p.storeVector st offset v count).2 = st

namespace Region

variable {σ : Type} {p : Region σ} {w : Window σ} {st : σ} {v : Packed} {offset count : Nat} {fault : Fault}

/-- too many lanes are refused before anything else -/
theorem storeVector_misuse (p : Region σ) (st : σ) (hc : v.shape.laneCount < count) :
    p.storeVector st offset v count = (.error .misuse, st) := by
  rw [storeVector, fits, if_pos hc]

theorem Shows.room_of_storeVector (hp : p.Shows w) (h : w.live st)
    (hdone : (p.storeVector st offset v count).1 = .ok ()) :
    count ≤ v.shape.laneCount ∧ offset + v.shape.bytesPerLane * count ≤ (w.get st).length := by
  have hc : count ≤ v.shape.laneCount := by
    by_contra hc
    rw [p.storeVector_misuse st (not_le.1 hc)] at hdone
    cases hdone
  refine ⟨hc, ?_⟩
  by_contra hout
  rw [hp.storeVector_error h hc (not_le.1 hout)] at hdone
  cases hdone

theorem Shows.storeVector_atomic (hp : p.Shows w) (h : w.live st) (hv : v.WellFormed)
    (herr : (p.storeVector st offset v count).1 = .error fault) : (p.storeVector st offset v count).2 = st := by
  by_cases hc : count ≤ v.shape.laneCount
  · by_cases hfit : offset + v.shape.bytesPerLane * count ≤ (w.get st).length
    · rw [hp.storeVector_ok h hv hc hfit] at herr
      cases herr
    · rw [hp.storeVector_error h hc (not_le.1 hfit)]
  · rw [p.storeVector_misuse st (not_le.1 hc)]

theorem Shows.write_atomic (hp : p.Shows w) (h : w.live st) {bytes : List UInt8}
    (herr : (p.write st offset bytes).1 = .error fault) : (p.write st offset bytes).2 = st := by
  by_cases hfit : offset + bytes.length ≤ (w.get st).length
  · rw [hp.write_ok h hfit] at herr
    cases herr
  · rw [hp.write_error h (not_le.1 hfit)]

/-- a region that shows a window decides about a store before its first write -/
theorem Shows.atomic (hp : p.Shows w) (h : w.live st) : p.Atomic st where
  write := hp.write_atomic h
  writeInt := hp.write_atomic h
  writeFloat := hp.write_atomic h
  storeVector := hp.storeVector_atomic h

theorem Shut.storeVector_snd (hp : p.Shut st) (v : Packed) (offset count : Nat) :
    (p.storeVector st offset v count).2 = st := by
  rw [storeVector]
  split
  · rename_i hfits
    rw [fits, hp.byteLength] at hfits
    split_ifs at hfits with hc hin
    -- the check passes only if no bytes are asked for, and then there is no lane to write
    have hz : offset + v.shape.bytesPerLane * count ≤ 0 := (within_iff (Nat.zero_le _)).1 hin
    have hcount : count = 0 := by
      have := Nat.mul_eq_zero.1 (show v.shape.bytesPerLane * count = 0 by omega)
      have := v.shape.bytesPerLane_pos
      omega
    rw [hcount]
    rfl
  · rfl

theorem Shut.atomic (hp : p.Shut st) : p.Atomic st where
  write _ := congrArg Prod.snd (hp.write _ _)
  writeInt _ := congrArg Prod.snd (hp.write _ _)
  writeFloat _ := congrArg Prod.snd (hp.write _ _)
  storeVector _ _ := hp.storeVector_snd _ _ _

end Region

/-- **A write through a handle that fails has changed nothing**, whether its buffer is detached or not. -/
theorem Handle.atomic {w : World} (hw : w.Sound) {p : Handle} (hp : w.Holds p) : p.region.Atomic w.store := by
  cases hd : (w.store.buffer p.buffer).detached with
  | true => exact (Handle.shut_region hd).atomic
  | false => exact p.shows_region.atomic (hw.live hp hd)

/-- a store that succeeds changes no bytes of the buffer but those of its lanes -/
theorem Handle.storeVector_outside {p : Handle} {st : Store} (hl : p.window.live st) {v : Packed} (hv : v.WellFormed)
    {offset count : Nat} (hdone : (p.region.storeVector st offset v count).1 = .ok ()) {i : Nat}
    (hi : i < p.base st + offset ∨ p.base st + offset + v.shape.bytesPerLane * count ≤ i) :
    ((p.region.storeVector st offset v count).2.buffer p.buffer).bytes[i]? = (st.buffer p.buffer).bytes[i]? := by
  obtain ⟨hc, hroom⟩ := p.shows_region.room_of_storeVector hl hdone
  have hlen := hv.length_image hc
  have hfit : offset + (v.image count).length ≤ p.limit st := by
    rw [hlen, limit_eq hl]
    exact hroom
  have hend := base_add_limit_le hl
  rw [p.shows_region.storeVector_ok hl hv hc hroom, window_put hl hfit, Store.withBytes,
    Store.buffer_setBuffer (Store.lt_of_attached (attached_of_live hl)), if_pos rfl, getElem?_splice (by omega),
    if_neg (by omega)]

theorem View.set_atomic {w : World} (hw : w.Sound) {v : View} (hv : v ∈ w.views) {index : Nat} {x : Double}
    {fault : Fault} (herr : (v.set w.store index x).1 = .error fault) : (v.set w.store index x).2 = w.store := by
  unfold View.set at herr ⊢
  split_ifs at herr ⊢
  · exact (Handle.atomic (p := .view v) hw hv).write herr
  · rfl

/-! ## Stores through scripts -/

/-- What a successful store of lanes amounts to. It returns the vector it was given, and replaces no other
bytes than those from the element at the index on, as many as the lanes have. -/
structure Stored (s : Shape) (target index x : Value) (count : Nat) (st st' : Store) (u : Packed) : Prop where
  returned : x = .vector u
  framed : ∃ (view : View) (k : Nat), target = .array view ∧ index.elementIndex? = some k ∧
    (∀ i : Nat, i < view.byteOffset st + k * view.kind.size ∨
        view.byteOffset st + k * view.kind.size + s.bytesPerLane * count ≤ i →
      (st'.buffer view.buffer).bytes[i]? = (st.buffer view.buffer).bytes[i]?) ∧
    ∀ id ≠ view.buffer, st'.buffer id = st.buffer id

namespace Shape

variable {w : World} {s : Shape} {target index x : Value} {count : Nat}

theorem store_eq {st : Store} {v : Packed} {view : View} {offset : Nat}
    (h : s.storePlan st target index x count = .ok (v, view, offset)) :
    s.store st target index x count =
      ((((view.region.storeVector st offset v count).1).mapError Fault.forScripts).map fun () => v,
        (view.region.storeVector st offset v count).2) := by
  rw [store, h]

theorem store_atomic (hw : w.Sound) (ht : w.Knows target) (hx : w.Knows x) {fault : Fault}
    (herr : (s.store w.store target index x count).1 = .error fault) :
    (s.store w.store target index x count).2 = w.store := by
  cases hplan : s.storePlan w.store target index x count with
  | error fault => rw [store, hplan]
  | ok plan =>
    obtain ⟨v, view, offset⟩ := plan
    obtain ⟨-, rfl, -, hlocate⟩ := storePlan_eq_ok hplan
    obtain ⟨rfl, -⟩ := locate_eq_ok hlocate
    rw [store_eq hplan] at herr ⊢
    -- with a plan made, only the store of the lanes can fail
    cases hdone : (view.region.storeVector w.store offset v count).1 with
    | error fault => exact (Handle.atomic (p := .view view) hw ht).storeVector hx hdone
    | ok done =>
      rw [hdone] at herr
      cases herr

theorem store_stored (hw : w.Sound) (ht : w.Knows target) (hx : w.Knows x) {u : Packed}
    (h : (s.store w.store target index x count).1 = .ok u) :
    Stored s target index x count w.store (s.store w.store target index x count).2 u := by
  cases hplan : s.storePlan w.store target index x count with
  | error fault =>
    rw [store, hplan] at h
    cases h
  | ok plan =>
    obtain ⟨v, view, offset⟩ := plan
    obtain ⟨-, rfl, hs, hlocate⟩ := storePlan_eq_ok hplan
    obtain ⟨rfl, hd, k, hk, rfl⟩ := locate_eq_ok hlocate
    simp only at hs
    subst hs
    have hl := hw.live (p := .view view) ht hd
    rw [store_eq hplan] at h ⊢
    obtain ⟨⟨⟩, hdone, hu⟩ := map_eq_ok.1 h
    subst hu
    have htouches := (Handle.view view).touches_storeVector w.store (k * view.kind.size) v count
    exact ⟨rfl, view, k, rfl, hk, fun i hi => Handle.storeVector_outside hl hx (mapError_eq_ok.1 hdone) hi,
      htouches.others⟩

end Shape

namespace Builtin

variable {cast : FloatCast} {w : World} {s : Shape} {args : List Value}

/-- what a call is filled up with can be held -/
theorem padded_known (b : Builtin) (hargs : ∀ x ∈ args, w.Knows x) : ∀ x ∈ b.padded args, w.Knows x := by
  intro x hx
  rcases List.mem_append.1 hx with h | h
  · exact hargs x h
  · rw [List.eq_of_mem_replicate h]
    trivial

theorem storeArguments_atomic (hw : w.Sound) (hargs : ∀ x ∈ args, w.Knows x) {count : Nat} {fault : Fault}
    (herr : (storeArguments s w.store args count).1 = .error fault) :
    (storeArguments s w.store args count).2 = w.store := by
  rcases args with _ | ⟨target, _ | ⟨index, _ | ⟨x, rest⟩⟩⟩
  · rfl
  · rfl
  · rfl
  · exact Shape.store_atomic hw (hargs target (by simp)) (hargs x (by simp)) herr

theorem call_atomic (hw : w.Sound) (b : Builtin) (hargs : ∀ x ∈ args, w.Knows x) {fault : Fault}
    (herr : (b.call cast s w.store args).1 = .error fault) : (b.call cast s w.store args).2 = w.store := by
  cases b with
  | store amount =>
    cases hstored : (storeArguments s w.store ((store amount).padded args) (amount.lanes s)).1 with
    | error fault => exact storeArguments_atomic hw (padded_known _ hargs) hstored
    | ok u =>
      simp only [call, dispatch, hstored] at herr
      cases herr
  | _ => rfl

theorem call_other {b : Builtin} (hb : ∀ amount, b ≠ store amount) (s : Shape) (st : Store) (args : List Value) :
    (b.call cast s st args).2 = st := by
  cases b with
  | store amount => exact absurd rfl (hb amount)
  | _ => rfl

/-- A store that succeeds has been given its three arguments, for `undefined` is no vector. -/
theorem call_stored (hw : w.Sound) {amount : LaneAmount} (hargs : ∀ x ∈ args, w.Knows x) {y : Value}
    (h : ((store amount).call cast s w.store args).1 = .ok y) :
    ∃ target index x rest u, args = target :: index :: x :: rest ∧ y = .vector u ∧
      Stored s target index x (amount.lanes s) w.store ((store amount).call cast s w.store args).2 u := by
  obtain ⟨u, hu, rfl⟩ := map_eq_ok.1 h
  have hundefined : w.Knows .undefined := trivial
  rcases args with _ | ⟨target, _ | ⟨index, _ | ⟨x, rest⟩⟩⟩
  · cases (Shape.store_stored hw hundefined hundefined hu).returned
  · cases (Shape.store_stored hw (hargs target (by simp)) hundefined hu).returned
  · cases (Shape.store_stored hw (hargs target (by simp)) hundefined hu).returned
  · exact ⟨target, index, x, rest, u, rfl, rfl,
      Shape.store_stored hw (hargs target (by simp)) (hargs x (by simp)) hu⟩

end Builtin

/-! ## All writes -/

/-- What holds of the writes that can be made in a world. -/
structure World.Framed (w : World) : Prop where
  /-- rows of cells, not longer than rows can be -/
  cells : ∀ row : List UInt8, row.length ≤ sizeLimit → Region.cells.Atomic row
  handle : ∀ p, w.Holds p → p.region.Atomic w.store
  set : ∀ v ∈ w.views, ∀ (index : Nat) (x : Double) (fault : Fault),
    (v.set w.store index x).1 = .error fault → (v.set w.store index x).2 = w.store
  store : ∀ (s : Shape) (target index x : Value) (count : Nat) (fault : Fault), w.Knows target → w.Knows x →
    (s.store w.store target index x count).1 = .error fault → (s.store w.store target index x count).2 = w.store
  call : ∀ (cast : FloatCast) (b : Builtin) (s : Shape) (args : List Value) (fault : Fault),
    (∀ x ∈ args, w.Knows x) → (b.call cast s w.store args).1 = .error fault →
      (b.call cast s w.store args).2 = w.store
  /-- whether the call succeeds or not -/
  other : ∀ (cast : FloatCast) (b : Builtin) (s : Shape) (args : List Value), (∀ amount, b ≠ .store amount) →
    (b.call cast s w.store args).2 = w.store
  stored : ∀ (s : Shape) (target index x : Value) (count : Nat) (u : Packed), w.Knows target → w.Knows x →
    (s.store w.store target index x count).1 = .ok u →
      Stored s target index x count w.store (s.store w.store target index x count).2 u
  callStored : ∀ (cast : FloatCast) (amount : LaneAmount) (s : Shape) (args : List Value) (y : Value),
    (∀ x ∈ args, w.Knows x) → ((Builtin.store amount).call cast s w.store args).1 = .ok y →
      ∃ target index x rest u, args = target :: index :: x :: rest ∧ y = .vector u ∧
        Stored s target index x (amount.lanes s) w.store ((Builtin.store amount).call cast s w.store args).2 u

/-- **Writes are atomic and framed**, in every world that events lead to. A write that fails, by whatever
means it is made, changes nothing; neither does a call of anything but a store; and a store changes only the
bytes of its lanes. -/
theorem reachable_framed {w : World} (hw : w.Reachable) : w.Framed where
  cells _ hrow := Region.shows_cells.atomic hrow
  handle _ hp := Handle.atomic hw.sound hp
  set _ hv _ _ _ herr := View.set_atomic hw.sound hv herr
  store _ _ _ _ _ _ ht hx herr := Shape.store_atomic hw.sound ht hx herr
  call _ b _ _ _ hargs herr := Builtin.call_atomic hw.sound b hargs herr
  other _ _ s args hb := Builtin.call_other hb s w.store args
  stored _ _ _ _ _ _ ht hx h := Shape.store_stored hw.sound ht hx h
  callStored _ _ _ _ _ hargs h := Builtin.call_stored hw.sound hargs h

/-- Twelve bytes of lanes at the end of a view of bytes. From the third element on there is room for them, and
from the fourth on only for two lanes, of which neither is written. -/
theorem reachable_framed_end :
    let v : Packed := ⟨.int32x4, .ints (Vector.replicate 16 0)⟩
    let view : View := ⟨0, .uint8, 1, 14⟩
    let w := World.empty.run [.newBuffer 16, .viewOf 0 .uint8 1 14]
    let args (k : Nat) : List Value := [.array view, .number (Binary.ofNat k), .vector v]
    let call (k : Nat) := (Builtin.store .three).call .truncating .int32x4 w.store (args k)
    w.Reachable ∧ (call 3).1 = .error (.script .elementRange) ∧ (call 3).2 = w.store ∧
      (call 2).1 = .ok (.vector v) ∧
      ∃ target index x rest u, args 2 = target :: index :: x :: rest ∧ Value.vector v = .vector u ∧
        Stored .int32x4 target index x 3 w.store (call 2).2 u := by
  intro v view w args call
  have hw : w.Reachable := ⟨_, rfl⟩
  have hlong : ∀ x ∈ args 3, w.Knows x := by decide
  have herr : (call 3).1 = .error (.script .elementRange) := by decide +kernel
  have hargs : ∀ x ∈ args 2, w.Knows x := by decide
  have hok : (call 2).1 = .ok (.vector v) := by decide +kernel
  exact ⟨hw, herr, (reachable_framed hw).call _ _ _ _ _ hlong herr, hok,
    (reachable_framed hw).callStored _ .three _ _ _ hargs hok⟩

end Vector128
