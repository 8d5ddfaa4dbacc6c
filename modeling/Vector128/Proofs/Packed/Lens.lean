/-
Lanes as lenses: what is put into a lane is got from it, and what is got from it and put back changes nothing.

A lane is got as the value that scripts see and put as any value that can be cast. So the last law rests on the cast
undoing what was done to show the lane (`Shape.toLane_laneValue`): the sign given to an unsigned lane goes away with the
bits above the lane width, and a float comes back from the format of Numbers. Of a NaN only that it is one comes back,
which is what `Lane.Same` leaves open.

- `Shape.replaceLane_lanes`, `Shape.extractLane_eq`: the two accesses, by the lane that an index names.
- `Shape.Lens`: the laws; `lanes_are_lenses`: every lane has them, and the values of all lanes make the vector again.
-/
import Vector128.Proofs.Binary.Widening
import Vector128.Proofs.Packed.Faults
import Vector128.Proofs.Packed.Range

namespace Vector128

open Outcome

theorem mapM_eq_pure {m : Type → Type} [Monad m] [LawfulMonad m] {α β : Type} {row : List α} {f : α → m β} {g : α → β}
    (h : ∀ a ∈ row, f a = pure (g a)) : row.mapM f = pure (row.map g) := by
  induction row with
  | nil => rw [List.mapM_nil, List.map_nil]
  | cons a row ih =>
    rw [List.mapM_cons, h a List.mem_cons_self, pure_bind, ih fun b hb => h b (List.mem_cons_of_mem a hb), pure_bind,
      List.map_cons]

/-- vectors of one shape with the same lanes, save for which NaN a lane is -/
def Packed.Same (v w : Packed) : Prop := v.shape = w.shape ∧ ∀ i < v.shape.laneCount, (v.lane i).Same (w.lane i)

namespace Shape

variable {s : Shape} {l m : Lane}

theorem stores_toLane {x : Value} (h : x.toLane s = .ok l) : s.Stores l := by
  refine ⟨Value.accepts_toLane h, ?_⟩
  unfold Value.toLane at h
  split_ifs at h
  · obtain rfl := Except.ok.inj h
    rfl
  · obtain ⟨n, -, rfl⟩ := map_eq_ok.1 h
    exact s.normalize_cast _

theorem wrap_visible (s : Shape) (n : Int) : s.width.wrap (s.visible n) = s.width.wrap n := by
  rw [LaneWidth.wrap_eq_toInt, LaneWidth.wrap_eq_toInt, s.ofInt_visible]

/-- **Casting undoes seeing**: the value of a lane is cast back to that lane, whatever the shape, or to a NaN where the
lane is one. -/
theorem toLane_laneValue (h : s.Stores l) : ∃ m, (s.laneValue l).toLane s = .ok m ∧ m.Same l := by
  cases l with
  | int n =>
    have hs : s.isInteger = true := h.accepts
    have hn : s.width.wrap n = n := Lane.int.inj h.normal
    have hexact : Number.integerPart (Binary.ofInt (s.visible n)) = s.visible n :=
      Number.integerPart_of_denotes (Number.denotes_ofInt ((natAbs_visible_lt hs hn).le.trans (by decide)))
    have hcast : s.cast (.double (Binary.ofInt (s.visible n))) = .int n := by
      rw [cast_ints hs, Scalar.toDouble, hexact, s.wrap_visible, hn]
    refine ⟨.int n, ?_, rfl⟩
    rw [laneValue, Value.toLane, isBool_of_isInteger hs, if_neg Bool.false_ne_true]
    exact congrArg Except.ok hcast
  | float x =>
    obtain rfl := eq_float32x4 h.accepts
    refine ⟨.float (x.convert : Double).convert, rfl, ?_⟩
    cases hx : x.isNaN with
    | true =>
      refine Or.inr ⟨?_, hx⟩
      rw [Binary.isNaN_convert (by decide), Binary.isNaN_convert (by decide), hx]
    | false => exact Or.inl (Binary.convert_convert Format.single_embeds_double (by decide) (by decide) hx)
  | bool b =>
    have hs : s.isBool = true := h.accepts
    refine ⟨.bool b, ?_, rfl⟩
    rw [laneValue, Value.toLane, if_pos hs]
    rfl

end Shape

/-- vectors are the same under SameValueZero exactly if they have as many lanes, and the values of those are the same in
pairs -/
theorem Packed.sameValueZero_iff_forall {v w : Packed} : v.sameValueZero w = true ↔
    v.shape.laneCount = w.shape.laneCount ∧
      ∀ i < v.shape.laneCount, (v.shape.laneValue (v.lane i)).sameLane (w.shape.laneValue (w.lane i)) = true := by
  rw [sameValueZero, Bool.and_eq_true, beq_iff_eq]
  refine and_congr_right fun hcount => ?_
  rw [values, values, lanes, lanes, ← hcount, List.map_map, List.map_map, List.zip_map', List.all_eq_true,
    List.forall_mem_map]
  simp only [List.mem_range, Function.comp_apply]

theorem Packed.sameValueZero_iff_sameLane {v w : Packed} (hws : w.shape = v.shape) : v.sameValueZero w = true ↔
    ∀ i < v.shape.laneCount, (v.shape.laneValue (v.lane i)).sameLane (v.shape.laneValue (w.lane i)) = true := by
  rw [sameValueZero_iff_forall, hws, and_iff_right rfl]

/-! ## Access to lanes -/

namespace Shape

variable {s : Shape} {v : Packed} {i : Nat} {a x : Value} {l : Lane}

theorem extractLane_eq (hs : v.shape = s) (ha : laneIndex s.laneCount a = .ok i) :
    s.extractLane v a = .ok (s.laneValue (v.lane i)) := by
  subst hs
  refine bind_eq_ok.2 ⟨v, Packed.expect_eq_ok.2 ⟨rfl, rfl⟩, bind_eq_ok.2 ⟨i, ha, bind_eq_ok.2 ⟨v.lane i, ?_, rfl⟩⟩⟩
  exact Packed.laneAt_eq_ok (laneIndex_lt ha)

theorem replaceLane_lanes (hv : v.WellFormed) (hs : v.shape = s) (ha : laneIndex s.laneCount a = .ok i)
    (hx : x.toLane s = .ok l) : ∃ u, s.replaceLane v a x = .ok u ∧ u.WellFormed ∧ u.shape = s ∧
      ∀ j < s.laneCount, u.lane j = if j = i then l else v.lane j := by
  subst hs
  have hlane : ∀ j < v.shape.laneCount, (if j = i then .ok l else v.laneAt j) =
      (.ok (if j = i then l else v.lane j) : Outcome Lane) := by
    intro j hj
    rw [Packed.laneAt_eq_ok hj]
    split_ifs <;> rfl
  have hstores : ∀ j < v.shape.laneCount, v.shape.Stores (if j = i then l else v.lane j) := by
    intro j _
    split_ifs
    · exact stores_toLane hx
    · exact hv.stores j
  obtain ⟨u, hu, hmade⟩ := Packed.build_lanes hlane hstores
  exact ⟨u, bind_eq_ok.2 ⟨v, Packed.expect_eq_ok.2 ⟨rfl, rfl⟩, bind_eq_ok.2 ⟨i, ha, bind_eq_ok.2 ⟨l, hx, hu⟩⟩⟩, hmade⟩

theorem create_lanes {values : List Value} {g : Nat → Lane}
    (h : ∀ i < s.laneCount, ∃ x, values[i]? = some x ∧ x.toLane s = .ok (g i)) :
    ∃ u, s.create values = .ok u ∧ u.WellFormed ∧ u.shape = s ∧ ∀ i < s.laneCount, u.lane i = g i := by
  have hargument : ∀ i < s.laneCount, s.argumentLane values i = .ok (g i) := by
    intro i hi
    obtain ⟨x, hx, hlane⟩ := h i hi
    rw [argumentLane, hx]
    exact hlane
  refine Packed.build_lanes hargument fun i hi => ?_
  obtain ⟨x, -, hlane⟩ := h i hi
  exact stores_toLane hlane

/-- casting what is seen of all lanes makes the vector again -/
theorem create_values (hv : v.WellFormed) (hs : v.shape = s) : ∃ u, s.create v.values = .ok u ∧ u.Same v := by
  subst hs
  choose g hg hsame using fun i => toLane_laneValue (hv.stores i)
  have hvalue : ∀ i < v.shape.laneCount, v.values[i]? = some (v.shape.laneValue (v.lane i)) := by
    intro i hi
    simp [Packed.values, Packed.lanes, hi]
  obtain ⟨u, hu, -, hus, hlane⟩ := create_lanes fun i hi => ⟨_, hvalue i hi, hg i⟩
  refine ⟨u, hu, hus, fun i hi => ?_⟩
  rw [hlane i (hus ▸ hi)]
  exact hsame i

/-- The laws of the lane `i` of a vector, which the index `a` names. -/
structure Lens (s : Shape) (v : Packed) (a : Value) (i : Nat) : Prop where
  /-- what is put into the lane is there, and any other lane still shows what it showed -/
  get_put : ∀ x l, x.toLane s = .ok l → ∃ u, s.replaceLane v a x = .ok u ∧ u.WellFormed ∧ u.shape = s ∧
    u.laneAt i = .ok l ∧ ∀ b j, laneIndex s.laneCount b = .ok j → j ≠ i →
      ∃ y, s.extractLane v b = .ok y ∧ s.extractLane u b = .ok y
  /-- of two values put into the lane the second stays -/
  put_put : ∀ x y l m, x.toLane s = .ok l → y.toLane s = .ok m → ∃ u t, s.replaceLane v a x = .ok u ∧
    s.replaceLane u a y = .ok t ∧ s.replaceLane v a y = .ok t
  /-- what was got from the lane and is put back changes nothing, save for which NaN the lane is -/
  put_get : ∃ x u, s.extractLane v a = .ok x ∧ s.replaceLane v a x = .ok u ∧ u.Same v ∧
    ∀ j < s.laneCount, j ≠ i → u.lane j = v.lane j

theorem lens_of_laneIndex (hv : v.WellFormed) (hs : v.shape = s) (ha : laneIndex s.laneCount a = .ok i) :
    s.Lens v a i where
  get_put := by
    intro x l hx
    obtain ⟨u, hu, hwf, hus, hlane⟩ := replaceLane_lanes hv hs ha hx
    have hi := laneIndex_lt ha
    refine ⟨u, hu, hwf, hus, ?_, ?_⟩
    · rw [Packed.laneAt_eq_ok (hus ▸ hi), hlane i hi, if_pos rfl]
    · intro b j hb hne
      refine ⟨_, extractLane_eq hs hb, ?_⟩
      rw [extractLane_eq hus hb, hlane j (laneIndex_lt hb), if_neg hne]
  put_put := by
    intro x y l m hx hy
    obtain ⟨u, hu, huwf, hus, hulane⟩ := replaceLane_lanes hv hs ha hx
    obtain ⟨t, ht, htwf, hts, htlane⟩ := replaceLane_lanes hv hs ha hy
    obtain ⟨r, hr, hrwf, hrs, hrlane⟩ := replaceLane_lanes huwf hus ha hy
    obtain rfl : r = t := by
      apply hrwf.ext htwf (hrs.trans hts.symm)
      intro j hj
      rw [hrs] at hj
      rw [hrlane j hj, htlane j hj, hulane j hj]
      split_ifs <;> rfl
    exact ⟨u, r, hu, hr, ht⟩
  put_get := by
    obtain ⟨m, hm, hsame⟩ := toLane_laneValue (hv.stores i)
    rw [hs] at hm
    obtain ⟨u, hu, -, hus, hlane⟩ := replaceLane_lanes hv hs ha hm
    refine ⟨_, u, extractLane_eq hs ha, hu, ⟨hus.trans hs.symm, ?_⟩, ?_⟩
    · intro j hj
      rw [hlane j (hus ▸ hj)]
      split_ifs with hji
      · rw [hji]
        exact hsame
      · exact Lane.Same.refl _
    · intro j hj hji
      rw [hlane j hj, if_neg hji]

end Shape

/-- **Lanes are lenses.** A lane is named by its number, whatever else names it too. Under each of its names it obeys the
laws of a lens, and the values of all lanes in order make the vector again. Lanes come back bit by bit, save that a NaN
may come back as another one. -/
theorem lanes_are_lenses {s : Shape} {v : Packed} (hv : v.WellFormed) (hs : v.shape = s) :
    (∀ k < s.laneCount, laneIndex s.laneCount (.number (Binary.ofNat k)) = .ok k) ∧
    (∀ a i, laneIndex s.laneCount a = .ok i → s.Lens v a i) ∧
    ∃ values u, (List.range s.laneCount).mapM (fun k => s.extractLane v (.number (Binary.ofNat k))) = .ok values ∧
      s.create values = .ok u ∧ u.Same v := by
  have hnames : ∀ k < s.laneCount, laneIndex s.laneCount (.number (Binary.ofNat k)) = .ok k := by
    intro k hk
    exact laneIndex_ofNat hk (s.laneCount_le.trans (by decide))
  refine ⟨hnames, fun a i ha => Shape.lens_of_laneIndex hv hs ha, ?_⟩
  obtain ⟨u, hu, hsame⟩ := Shape.create_values hv hs
  refine ⟨v.values, u, ?_, hu, hsame⟩
  have hvalues : v.values = (List.range s.laneCount).map fun k => s.laneValue (v.lane k) := by
    rw [Packed.values, Packed.lanes, List.map_map, hs]
    rfl
  rw [hvalues]
  exact mapM_eq_pure fun k hk => Shape.extractLane_eq hs (hnames k (List.mem_range.1 hk))

/-- A signalling NaN that is got and put back is a quiet one then; a negative zero stays what it is. -/
theorem lanes_are_lenses_nan :
    let v : Packed := ⟨.float32x4, .floats #v[.ofBits 0xFF800001, .ofBits 0x80000000, .ofBits 0x3F800000, .zero]⟩
    let u : Packed := ⟨.float32x4, .floats #v[.ofBits 0xFFC00001, .ofBits 0x80000000, .ofBits 0x3F800000, .zero]⟩
    let first : Value := .string "0"
    let x : Value := .boolean true
    v.WellFormed ∧ laneIndex (Shape.laneCount .float32x4) first = .ok 0 ∧ x.toLane .float32x4 = .ok (.float (.ofInt 1)) ∧
      (∃ t, Shape.replaceLane .float32x4 v first x = .ok t ∧ t.laneAt 0 = .ok (.float (.ofInt 1))) ∧
      (∃ y, Shape.extractLane .float32x4 v first = .ok y ∧ Shape.replaceLane .float32x4 v first y = .ok u ∧ u.Same v) := by
  intro v u first x
  have hv : v.WellFormed := by decide
  have hfirst : laneIndex (Shape.laneCount .float32x4) first = .ok 0 := by decide +kernel
  have hx : x.toLane .float32x4 = .ok (.float (.ofInt 1)) := by decide +kernel
  obtain ⟨-, hlens, -⟩ := lanes_are_lenses (s := .float32x4) hv rfl
  obtain ⟨t, ht, -, -, hget, -⟩ := (hlens first 0 hfirst).get_put x _ hx
  obtain ⟨y, r, hy, hr, hsame, -⟩ := (hlens first 0 hfirst).put_get
  have hyu : (Shape.extractLane .float32x4 v first >>= fun y => Shape.replaceLane .float32x4 v first y) = .ok u := by
    decide +kernel
  obtain ⟨y', hy', hu⟩ := bind_eq_ok.1 hyu
  obtain rfl : y' = y := Except.ok.inj (hy'.symm.trans hy)
  obtain rfl : r = u := Except.ok.inj (hr.symm.trans hu)
  exact ⟨hv, hfirst, hx, ⟨t, ht, hget⟩, y', hy, hu, hsame⟩

end Vector128
