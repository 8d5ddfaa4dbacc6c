/-
Views over the life of their buffer.

A world only ever grows (`World.Extends`): views are made and never changed, a buffer keeps the size it was allocated
with, and once detached it stays so, whatever else happens. The place of a view therefore needs to be checked only when
the view is made. A copy of a view is the view itself, so copying needs no event.

Results, for every world that events lead to:
- a view is aligned and inside the bytes of its buffer, and a new one is granted exactly if it will be;
- `World.Closed`: a detached buffer and its views report no bytes and refuse every access, also one of no bytes, and
  only an empty view at zero can still be made of it;
- `views_inside_until_detached`: both, the second after any further events.
-/
import Vector128.Proofs.Memory.World

namespace Vector128

/-! ## Worlds only grow -/

/-- `w'` extends `w`: there are more buffers and views, the old ones are the same, and detaching is for good -/
structure World.Extends (w w' : World) : Prop where
  count : w.store.buffers.length ≤ w'.store.buffers.length
  views : w.views <+: w'.views
  size : ∀ id < w.store.buffers.length, (w'.store.buffer id).bytes.length = (w.store.buffer id).bytes.length
  detached : ∀ id < w.store.buffers.length, (w.store.buffer id).detached = true → (w'.store.buffer id).detached = true

namespace World

variable {w w' w'' : World}

theorem Extends.refl (w : World) : w.Extends w := ⟨le_rfl, List.prefix_refl _, fun _ _ => rfl, fun _ _ h => h⟩

theorem Extends.trans (h : w.Extends w') (h' : w'.Extends w'') : w.Extends w'' where
  count := h.count.trans h'.count
  views := h.views.trans h'.views
  size id hid := (h'.size id (hid.trans_le h.count)).trans (h.size id hid)
  detached id hid hd := h'.detached id (hid.trans_le h.count) (h.detached id hid hd)

/-- what leaves the buffers alike extends nothing but the bytes -/
theorem Extends.of_alike {st : Store} (ha : w.store.Alike st) : w.Extends { w with store := st } where
  count := ha.count.ge
  views := List.prefix_refl _
  size id _ := ha.size id
  detached id _ hd := (ha.detached id).trans hd

theorem Extends.addView (w : World) (v : View) : w.Extends { w with views := w.views ++ [v] } :=
  ⟨le_rfl, List.prefix_append _ _, fun _ _ => rfl, fun _ _ h => h⟩

theorem Extends.addBuffer (w : World) (b : Buffer) : w.Extends { w with store := (w.store.addBuffer b).2 } := by
  have hold : ∀ id < w.store.buffers.length, (w.store.addBuffer b).2.buffer id = w.store.buffer id := by
    intro id hid
    rw [buffer_addBuffer, if_neg hid.ne]
  refine ⟨?_, List.prefix_refl _, ?_, ?_⟩
  · simp only [Store.addBuffer, List.length_append]
    exact Nat.le_add_right _ _
  · intro id hid
    rw [hold id hid]
  · intro id hid hd
    rw [hold id hid, hd]

theorem Extends.addArray (w : World) (b : Buffer) (v : View) :
    w.Extends ⟨(w.store.addBuffer b).2, w.views ++ [v]⟩ :=
  (Extends.addBuffer w b).trans (Extends.addView _ v)

theorem buffer_detach {st : Store} {id : Nat} (hid : id < st.buffers.length) (id' : Nat) :
    (st.detach id).buffer id' = if id' = id then (st.buffer id).detach else st.buffer id' :=
  Store.buffer_setBuffer hid _ id'

theorem Extends.detach (w : World) (id : Nat) : w.Extends { w with store := w.store.detach id } := by
  by_cases hid : id < w.store.buffers.length
  · refine ⟨List.length_set.ge, List.prefix_refl _, ?_, ?_⟩
    · intro id' _
      rw [buffer_detach hid]
      split_ifs with he
      · rw [he, Buffer.detach, List.length_replicate]
      · rfl
    · intro id' _ hd
      rw [buffer_detach hid]
      split_ifs
      · rfl
      · exact hd
  · rw [Store.detach, Store.setBuffer_of_le (not_lt.1 hid)]
    exact Extends.refl w

theorem step_extends (w : World) (e : Event) : w.Extends (w.step e) := by
  cases e with
  | newBuffer size =>
    simp only [step, Store.allocate]
    split_ifs
    · exact Extends.refl w
    · exact Extends.addBuffer w _
  | bufferOf bytes =>
    simp only [step]
    split_ifs
    · exact Extends.addBuffer w _
    · exact Extends.refl w
  | newArray kind length =>
    simp only [step, View.allocate, Store.allocate]
    split_ifs
    · exact Extends.refl w
    · exact Extends.addArray w _ _
  | arrayOf kind elements =>
    simp only [step]
    split_ifs
    · exact Extends.addArray w _ _
    · exact Extends.refl w
  | viewOf id kind start length =>
    simp only [step]
    split_ifs
    · split
      · exact Extends.addView w _
      · exact Extends.refl w
    · exact Extends.refl w
  | detach id => exact Extends.detach w id
  | access a =>
    simp only [step]
    split_ifs
    · exact Extends.of_alike (a.touches_run w.store).toAlike
    · exact Extends.refl w
  | storeVector p offset v count =>
    simp only [step]
    split_ifs
    · exact Extends.of_alike (p.touches_storeVector w.store offset v count).toAlike
    · exact Extends.refl w
  | call cast b s args =>
    simp only [step]
    split_ifs
    · exact Extends.of_alike (b.alike_call cast s w.store args)
    · exact Extends.refl w

theorem run_extends (w : World) (events : List Event) : w.Extends (w.run events) := by
  induction events generalizing w with
  | nil => exact Extends.refl w
  | cons e events ih => exact (step_extends w e).trans (ih (w.step e))

/-! ## Detached buffers -/

/-- What is left of a detached buffer. -/
structure Closed (w : World) (id : Nat) : Prop where
  byteLength : (w.store.buffer id).byteLength = 0
  contents : (w.store.buffer id).contents = []
  views : ∀ v : View, v.buffer = id →
    v.byteOffset w.store = 0 ∧ v.count w.store = 0 ∧ v.byteLength w.store = 0
  /-- by bytes, by numbers and by elements, through the buffer and through its views -/
  access : ∀ a : Access, a.handle.buffer = id → a.run w.store = (.error .outOfBounds, w.store)
  admits : ∀ (kind : ElementKind) (start length : Nat),
    (∃ v, View.ofBuffer? w.store id kind start length = some v) ↔ start = 0 ∧ length = 0

end World

theorem Access.run_of_detached {a : Access} {st : Store} (hd : (st.buffer a.handle.buffer).detached = true) :
    a.run st = (.error .outOfBounds, st) := by
  cases a <;> simp only [handle] at hd
  case copyOut h offset count =>
    simp only [run, (Handle.shut_region hd).read]
    rfl
  case copyIn h offset bytes =>
    simp only [run, (Handle.shut_region hd).write]
    rfl
  case loadInt h offset w =>
    simp only [run, Region.readInt, (Handle.shut_region hd).read]
    rfl
  case storeInt h offset w n =>
    simp only [run, Region.writeInt, (Handle.shut_region hd).write]
    rfl
  case loadSingle h offset | loadDouble h offset =>
    simp only [run, Region.readFloat, (Handle.shut_region hd).read]
    rfl
  case storeSingle h offset x | storeDouble h offset x =>
    simp only [run, Region.writeFloat, (Handle.shut_region hd).write]
    rfl
  case get v index =>
    have hc : v.count st = 0 := if_pos hd
    simp only [run, View.get, hc, Nat.not_lt_zero, if_false]
    rfl
  case set v index x =>
    have hc : v.count st = 0 := if_pos hd
    simp only [run, View.set, hc, Nat.not_lt_zero, if_false]
    rfl

theorem World.closed_of_detached {w : World} {id : Nat} (hd : (w.store.buffer id).detached = true) : w.Closed id := by
  have hcontents : (w.store.buffer id).contents = [] := if_pos hd
  have hlength : (w.store.buffer id).byteLength = 0 := by rw [Buffer.byteLength, hcontents]; rfl
  refine ⟨hlength, hcontents, ?_, ?_, ?_⟩
  · rintro v rfl
    have hcount : v.count w.store = 0 := if_pos hd
    refine ⟨if_pos hd, hcount, ?_⟩
    rw [View.byteLength, hcount, Nat.zero_mul]
  · rintro a rfl
    exact Access.run_of_detached hd
  · intro kind start length
    have hsize := kind.size_pos
    constructor
    · rintro ⟨v, hv⟩
      obtain ⟨-, -, hfit⟩ := (View.ofBuffer?_eq_some (hlength ▸ Nat.zero_le _)).1 hv
      rw [hlength] at hfit
      have hzero : length * kind.size = 0 := by omega
      rcases Nat.mul_eq_zero.1 hzero with hl | hk
      · exact ⟨by omega, hl⟩
      · omega
    · rintro ⟨rfl, rfl⟩
      refine ⟨⟨id, kind, 0, 0⟩, (View.ofBuffer?_eq_some (hlength ▸ Nat.zero_le _)).2 ⟨rfl, Nat.zero_mod _, ?_⟩⟩
      rw [Nat.zero_mul]
      exact Nat.zero_le _

/-- **Views are inside their buffer until it is detached, and see nothing from then on.** In every world that events
lead to:
- a view that was made starts at a multiple of its element size and ends within the bytes allocated, by its own account
  and by what it reports;
- a view is granted exactly if its start is such a multiple and it ends within the bytes that the buffer reports;
- a buffer that is now detached is closed after whatever events follow, for the views there are by then;
- no event undoes any of this: views and sizes stay what they are. -/
theorem views_inside_until_detached {w : World} (hw : w.Reachable) :
    (∀ v ∈ w.views, (v.start % v.kind.size = 0 ∧
        v.start + v.length * v.kind.size ≤ (w.store.buffer v.buffer).bytes.length) ∧
      v.byteOffset w.store % v.kind.size = 0 ∧
        v.byteOffset w.store + v.count w.store * v.kind.size ≤ (w.store.buffer v.buffer).bytes.length) ∧
    (∀ id kind start length v, View.ofBuffer? w.store id kind start length = some v ↔
      v = ⟨id, kind, start, length⟩ ∧ start % kind.size = 0 ∧
        start + length * kind.size ≤ (w.store.buffer id).byteLength) ∧
    (∀ id < w.store.buffers.length, ∀ events, ((w.step (.detach id)).run events).Closed id) ∧
    ∀ events, w.Extends (w.run events) := by
  have hsound := hw.sound
  refine ⟨?_, ?_, ?_, World.run_extends w⟩
  · intro v hv
    have ha := hsound.aligned v hv
    have hi := hsound.inside v hv
    refine ⟨⟨ha, hi⟩, ?_⟩
    unfold View.byteOffset View.count
    split_ifs
    · refine ⟨Nat.zero_mod _, ?_⟩
      rw [Nat.zero_mul]
      exact Nat.zero_le _
    · exact ⟨ha, hi⟩
  · intro id kind start length v
    exact View.ofBuffer?_eq_some ((Buffer.byteLength_le _).trans (hsound.size id))
  · intro id hid events
    have hnow : ((w.step (.detach id)).store.buffer id).detached = true := by
      simp only [World.step, World.buffer_detach hid, if_true]
      rfl
    have hlen : id < (w.step (.detach id)).store.buffers.length := hid.trans_le (World.step_extends w _).count
    exact World.closed_of_detached ((World.run_extends _ events).detached id hlen hnow)

/-- Two views overlap in a buffer that is then detached. After that an empty view is granted and one of a byte is not,
and not even no bytes can be copied through the view from before. -/
theorem views_inside_until_detached_overlap :
    let v : View := ⟨0, .int16, 2, 3⟩
    let w := World.empty.run [.newBuffer 8, .viewOf 0 .int16 2 3, .viewOf 0 .int16 1 3, .viewOf 0 .float64 0 1]
    let later := (w.step (.detach 0)).run [.newBuffer 4, .viewOf 0 .int8 0 0, .viewOf 0 .int8 0 1]
    w.Reachable ∧ w.views = [v, ⟨0, .float64, 0, 1⟩] ∧ 2 % 2 = 0 ∧ 2 + 3 * 2 ≤ 8 ∧
      later.views = [v, ⟨0, .float64, 0, 1⟩, ⟨0, .int8, 0, 0⟩] ∧ later.Closed 0 ∧
      (Access.copyOut (.view v) 0 0).run later.store = (.error .outOfBounds, later.store) := by
  intro v w later
  have hw : w.Reachable := ⟨_, rfl⟩
  have hviews : w.views = [v, ⟨0, .float64, 0, 1⟩] := by decide
  have hv : v ∈ w.views := by decide
  obtain ⟨hinside, -, hclosed, -⟩ := views_inside_until_detached hw
  obtain ⟨⟨haligned, hfit⟩, -⟩ := hinside v hv
  have hlater := hclosed 0 (by decide) [.newBuffer 4, .viewOf 0 .int8 0 0, .viewOf 0 .int8 0 1]
  exact ⟨hw, hviews, haligned, hfit, by decide, hlater, hlater.access _ rfl⟩

end Vector128
