/-
Lanes in storage: what reading a lane gives after a lane was set or slots were filled.

- `WellFormed.ext`: a well-formed vector is its shape and its lanes.
- `WellFormed.setLane`, `build_eq_ok_iff`: the route of single lanes. One step keeps the invariant and changes
  one lane, and a whole loop gives the vector with the lanes asked for. `build_lanes` says so where each of
  them is one that the shape can have (`Shape.Stores`).
- `mapInts_spec` … `zipBools_spec`: the route of filled slots, one statement for each way to fill them.
-/
import Mathlib.Tactic
import Vector128.Packed.Basic

namespace Vector128

open Outcome

/-! ## Shapes and lanes -/

namespace Shape

theorem laneCount_le (s : Shape) : s.laneCount ≤ 16 := by
  cases s <;> decide

theorem laneCount_pos (s : Shape) : 0 < s.laneCount := by
  cases s <;> decide

theorem laneCount_congr {s t : Shape} (h : t.width = s.width) : t.laneCount = s.laneCount := by
  rw [laneCount, laneCount, h]

theorem kind_of_isInteger {s : Shape} (h : s.isInteger = true) : s.kind = .signed ∨ s.kind = .unsigned := by
  cases s <;> cases h
  all_goals first
    | exact Or.inl rfl
    | exact Or.inr rfl

theorem eq_float32x4 {s : Shape} (h : s.isFloat = true) : s = .float32x4 := by
  cases s <;> cases h
  rfl

theorem laneCount_of_isFloat {s : Shape} (h : s.isFloat = true) : s.laneCount = 4 := by
  rw [eq_float32x4 h]
  rfl

@[simp] theorem normalize_normalize (s : Shape) (l : Lane) : s.normalize (s.normalize l) = s.normalize l := by
  cases l with
  | int n => simp [normalize, LaneWidth.wrap]
  | float x => rfl
  | bool b => rfl

@[simp] theorem normalize_zeroLane (s : Shape) : s.normalize s.zeroLane = s.zeroLane := by
  cases s <;> decide

@[simp] theorem accepts_zeroLane (s : Shape) : s.accepts s.zeroLane = true := by
  cases s <;> decide

theorem isBool_of_isInteger {s : Shape} (h : s.isInteger = true) : s.isBool = false := by
  cases s <;> cases h <;> rfl

theorem isBool_boolShape (s : Shape) : s.boolShape.isBool = true := by
  cases s <;> rfl

theorem laneCount_boolShape (s : Shape) : s.boolShape.laneCount = s.laneCount := by
  cases s <;> rfl

theorem zeroLane_of_isInteger {s : Shape} (h : s.isInteger = true) : s.zeroLane = .int 0 := by
  cases s <;> cases h <;> rfl

theorem zeroLane_of_isFloat {s : Shape} (h : s.isFloat = true) : s.zeroLane = .float Binary.zero := by
  rw [eq_float32x4 h]
  rfl

theorem zeroLane_of_isBool {s : Shape} (h : s.isBool = true) : s.zeroLane = .bool false := by
  cases s <;> cases h <;> rfl

end Shape

namespace Slots

variable {α β γ : Type} {n : Nat}

theorem getD_setIfInBounds (a : Vector α n) (i j : Nat) (x d : α) :
    (a.setIfInBounds i x).getD j d = if j = i ∧ i < n then x else a.getD j d := by
  simp only [Vector.getD, Vector.toArray_setIfInBounds, Array.getD_eq_getD_getElem?, Array.getElem?_setIfInBounds,
    Vector.size_toArray]
  by_cases h : i = j
  · subst h
    by_cases hi : i < n
    · simp [hi]
    · simp [hi]
  · simp [h, Ne.symm h]

theorem getD_of_lt (a : Vector α n) {i : Nat} (d : α) (h : i < n) : a.getD i d = a[i] := by
  simp [Vector.getD, Array.getD_eq_getD_getElem?, h]

theorem getD_of_le (a : Vector α n) {i : Nat} (d : α) (h : n ≤ i) : a.getD i d = d := by
  simp [Vector.getD, Array.getD_eq_getD_getElem?, h]

theorem getD_replicate (n i : Nat) (d : α) : (Vector.replicate n d).getD i d = d := by
  by_cases h : i < n
  · rw [getD_of_lt _ _ h, Vector.getElem_replicate]
  · rw [getD_of_le _ _ (by omega)]

theorem ext_getD {a b : Vector α n} (d : α) (h : ∀ i < n, a.getD i d = b.getD i d) : a = b := by
  ext i hi
  rw [← getD_of_lt a d hi, ← getD_of_lt b d hi]
  exact h i hi

theorem getD_fill (count : Nat) (rest : α) (f : Nat → α) (i : Nat) (h : count ≤ 16) :
    (fill count rest f).getD i rest = if i < count then f i else rest := by
  by_cases hi : i < 16
  · simp [getD_of_lt _ _ hi, fill]
  · rw [getD_of_le _ _ (by omega), if_neg (by omega)]

theorem getD_map (f : α → β) (a : Vector α n) {i : Nat} (d : α) (e : β) (h : i < n) :
    (a.map f).getD i e = f (a.getD i d) := by
  rw [getD_of_lt _ _ h, getD_of_lt _ _ h, Vector.getElem_map]

theorem getD_zipWith (f : α → β → γ) (a : Vector α n) (b : Vector β n) {i : Nat} (d : α) (e : β) (g : γ) (h : i < n) :
    (Vector.zipWith f a b).getD i g = f (a.getD i d) (b.getD i e) := by
  rw [getD_of_lt _ _ h, getD_of_lt _ _ h, getD_of_lt _ _ h, Vector.getElem_zipWith]

end Slots

/-! ## Well-formed vectors -/

/-- whether the shape can have the lane: it is of its kind, and an integer fits the lane width -/
structure Shape.Stores (s : Shape) (l : Lane) : Prop where
  accepts : s.accepts l = true
  normal : s.normalize l = l

namespace Packed

variable {v w : Packed}

theorem expect_eq_ok {s : Shape} : v.expect s = .ok w ↔ v.shape = s ∧ v = w := by
  unfold expect
  split_ifs with h <;> simp [h]

theorem lane_zero (s : Shape) (i : Nat) : (zero s).lane i = s.zeroLane := by
  cases s <;> simp only [lane, zero, Shape.zeroSlots, Slots.lane, Shape.kind, Slots.getD_replicate] <;> rfl

theorem wellFormed_zero (s : Shape) : (zero s).WellFormed where
  kind := by cases s <;> rfl
  stored i _ := by rw [lane_zero]; exact s.normalize_zeroLane
  unused i _ _ := lane_zero s i

theorem WellFormed.accepts (hv : v.WellFormed) (i : Nat) : v.shape.accepts (v.lane i) = true := by
  obtain ⟨s, a | a | a⟩ := v <;> exact hv.kind

theorem WellFormed.lane_of_le (hv : v.WellFormed) {i : Nat} (hi : v.shape.laneCount ≤ i) :
    v.lane i = v.shape.zeroLane := by
  by_cases h : i < 16
  · exact hv.unused i h hi
  · obtain ⟨s, a | a | a⟩ := v
    · rw [Shape.zeroLane_of_isInteger hv.kind]
      simp only [lane, Slots.lane, Slots.getD_of_le a 0 (not_lt.1 h)]
    · rw [Shape.zeroLane_of_isFloat hv.kind]
      simp only [lane, Slots.lane, Slots.getD_of_le a Binary.zero (show 4 ≤ i by omega)]
    · rw [Shape.zeroLane_of_isBool hv.kind]
      simp only [lane, Slots.lane, Slots.getD_of_le a false (not_lt.1 h)]

theorem WellFormed.normalize_lane (hv : v.WellFormed) (i : Nat) : v.shape.normalize (v.lane i) = v.lane i := by
  by_cases h : i < v.shape.laneCount
  · exact hv.stored i h
  · rw [hv.lane_of_le (not_lt.1 h), Shape.normalize_zeroLane]

theorem WellFormed.stores (hv : v.WellFormed) (i : Nat) : v.shape.Stores (v.lane i) :=
  ⟨hv.accepts i, hv.normalize_lane i⟩

/-- **A well-formed vector is its shape and its lanes.** -/
theorem WellFormed.ext (hv : v.WellFormed) (hw : w.WellFormed) (hs : v.shape = w.shape)
    (h : ∀ i < v.shape.laneCount, v.lane i = w.lane i) : v = w := by
  have hall : ∀ i, v.lane i = w.lane i := by
    intro i
    by_cases hi : i < v.shape.laneCount
    · exact h i hi
    · rw [hv.lane_of_le (not_lt.1 hi), hw.lane_of_le (hs ▸ not_lt.1 hi), hs]
  obtain ⟨s, a⟩ := v
  obtain ⟨t, b⟩ := w
  obtain rfl : s = t := hs
  congr 1
  cases a <;> cases b <;> simp only [lane, Slots.lane, reduceCtorEq, forall_const, Lane.int.injEq, Lane.float.injEq,
    Lane.bool.injEq] at hall
  all_goals rw [Slots.ext_getD _ fun i _ => hall i]

/-! ## The route of single lanes -/

/-- one lane set: the invariant stays, and no other lane changes -/
theorem WellFormed.setLane (hv : v.WellFormed) {i : Nat} {l : Lane} (h : v.setLane i l = .ok w) :
    w.WellFormed ∧ w.shape = v.shape ∧ i < v.shape.laneCount ∧ v.shape.accepts l = true ∧
      ∀ j, w.lane j = if j = i then v.shape.normalize l else v.lane j := by
  obtain ⟨s, a⟩ := v
  unfold Packed.setLane at h
  split_ifs at h with hi
  have hn := s.laneCount_le
  have hlane : w.shape = s ∧ s.accepts l = true ∧ s.holds w.slots = true ∧
      ∀ j, w.lane j = if j = i then s.normalize l else Packed.lane ⟨s, a⟩ j := by
    cases a <;> cases l <;> simp only [reduceCtorEq, Except.ok.injEq] at h
    all_goals
      subst h
      refine ⟨rfl, hv.kind, hv.kind, fun j => ?_⟩
      have hsize : s.laneCount ≤ 16 := hn
      simp only [Packed.lane, Slots.lane, Slots.getD_setIfInBounds]
    · have : i < 16 := lt_of_lt_of_le hi hn
      by_cases hj : j = i <;> simp [hj, this, Shape.normalize]
    · have : i < 4 := (Shape.laneCount_of_isFloat hv.kind) ▸ hi
      by_cases hj : j = i <;> simp [hj, this, Shape.normalize]
    · have : i < 16 := lt_of_lt_of_le hi hn
      by_cases hj : j = i <;> simp [hj, this, Shape.normalize]
  obtain ⟨rfl, hl, hk, hlane⟩ := hlane
  refine ⟨⟨hk, fun j _ => ?_, fun j _ hj => ?_⟩, rfl, hi, hl, hlane⟩
  · rw [hlane]
    split_ifs
    · exact Shape.normalize_normalize _ _
    · exact hv.normalize_lane j
  · have hne : j ≠ i := fun h => absurd (h ▸ hi) (not_lt.2 hj)
    rw [hlane, if_neg hne]
    exact hv.lane_of_le hj

theorem WellFormed.setLane_exists (hv : v.WellFormed) {i : Nat} {l : Lane} (hi : i < v.shape.laneCount)
    (hl : v.shape.accepts l = true) : ∃ w, v.setLane i l = .ok w := by
  obtain ⟨s, a⟩ := v
  have hk := hv.kind
  unfold Packed.setLane
  rw [if_pos hi]
  -- where the slot and the lane are of two kinds, no shape has both
  cases a <;> cases l <;> first
    | exact ⟨_, rfl⟩
    | cases s <;> first | exact absurd hk Bool.false_ne_true | exact absurd hl Bool.false_ne_true

/-- the loop of `build`, stopped after the first `n` lanes -/
def buildUpTo (s : Shape) (f : Nat → Outcome Lane) (n : Nat) : Outcome Packed :=
  (List.range n).foldlM (fun v i => do v.setLane i (← f i)) (zero s)

theorem buildUpTo_succ (s : Shape) (f : Nat → Outcome Lane) (n : Nat) :
    buildUpTo s f (n + 1) = buildUpTo s f n >>= fun v => f n >>= v.setLane n := by
  simp only [buildUpTo, List.range_succ, List.foldlM_append, List.foldlM_cons, List.foldlM_nil, bind_pure]

theorem buildUpTo_congr {s : Shape} {f g : Nat → Outcome Lane} {n : Nat} (h : ∀ i < n, f i = g i) :
    buildUpTo s f n = buildUpTo s g n := by
  induction n with
  | zero => rfl
  | succ n ih => rw [buildUpTo_succ, buildUpTo_succ, ih fun i hi => h i (by omega), h n (Nat.lt_succ_self n)]

/-- a vector is built from as many lanes as the shape has -/
theorem build_congr {s : Shape} {f g : Nat → Outcome Lane} (h : ∀ i < s.laneCount, f i = g i) : build s f = build s g :=
  buildUpTo_congr h

/-- what the loop has done after `n` lanes: those are set, and the others are still zero -/
theorem buildUpTo_spec {s : Shape} {f : Nat → Outcome Lane} {n : Nat} (h : buildUpTo s f n = .ok v) :
    v.WellFormed ∧ v.shape = s ∧ (∀ i < n, ∃ l, f i = .ok l ∧ s.accepts l = true ∧ v.lane i = s.normalize l) ∧
      ∀ i, n ≤ i → v.lane i = s.zeroLane := by
  induction n generalizing v with
  | zero =>
    obtain rfl : zero s = v := Except.ok.inj h
    exact ⟨wellFormed_zero s, rfl, fun i hi => absurd hi (Nat.not_lt_zero i), fun i _ => lane_zero s i⟩
  | succ n ih =>
    rw [buildUpTo_succ] at h
    obtain ⟨u, hu, hn⟩ := bind_eq_ok.1 h
    obtain ⟨l, hl, hv⟩ := bind_eq_ok.1 hn
    obtain ⟨hwf, rfl, hset, hrest⟩ := ih hu
    obtain ⟨hv, hs, -, hacc, hlane⟩ := hwf.setLane hv
    refine ⟨hv, hs, fun i hi => ?_, fun i hi => ?_⟩
    · rw [hlane]
      split_ifs with hin
      · exact ⟨l, hin ▸ hl, hacc, rfl⟩
      · exact hset i (by omega)
    · rw [hlane, if_neg (by omega)]
      exact hrest i (by omega)

theorem buildUpTo_exists {s : Shape} {f : Nat → Outcome Lane} {n : Nat} (hn : n ≤ s.laneCount)
    (h : ∀ i < n, ∃ l, f i = .ok l ∧ s.accepts l = true) : ∃ v, buildUpTo s f n = .ok v := by
  induction n with
  | zero => exact ⟨zero s, rfl⟩
  | succ n ih =>
    obtain ⟨v, hv⟩ := ih (by omega) fun i hi => h i (by omega)
    obtain ⟨l, hl, hacc⟩ := h n (Nat.lt_succ_self n)
    obtain ⟨hwf, rfl, -⟩ := buildUpTo_spec hv
    obtain ⟨w, hw⟩ := hwf.setLane_exists (i := n) (by omega) hacc
    exact ⟨w, by rw [buildUpTo_succ, bind_eq_ok]; exact ⟨v, hv, bind_eq_ok.2 ⟨l, hl, hw⟩⟩⟩

/-- **What `build` makes**: it answers exactly with the well-formed vector of the shape whose lanes are the
ones asked for, cut to the lane width, and it has an answer exactly if every lane asked for is one and of the
shape's kind. -/
theorem build_eq_ok_iff {s : Shape} {f : Nat → Outcome Lane} :
    build s f = .ok v ↔ v.WellFormed ∧ v.shape = s ∧
      ∀ i < s.laneCount, ∃ l, f i = .ok l ∧ s.accepts l = true ∧ v.lane i = s.normalize l := by
  constructor
  · intro h
    obtain ⟨hv, hs, hlane, -⟩ := buildUpTo_spec h
    exact ⟨hv, hs, hlane⟩
  · rintro ⟨hv, rfl, hlane⟩
    obtain ⟨w, hw⟩ := buildUpTo_exists le_rfl fun i hi => (hlane i hi).imp fun l hl => ⟨hl.1, hl.2.1⟩
    obtain ⟨hwf, hs, hlane', -⟩ := buildUpTo_spec hw
    obtain rfl : w = v := hwf.ext hv hs fun i hi => by
      obtain ⟨l, hl, -, hlw⟩ := hlane' i (hs ▸ hi)
      obtain ⟨l', hl', -, hlv⟩ := hlane i (hs ▸ hi)
      obtain rfl : l = l' := Except.ok.inj (hl.symm.trans hl')
      rw [hlw, hlv]
    exact hw

/-- lanes that the shape can have are what the vector has -/
theorem build_lanes {s : Shape} {f : Nat → Outcome Lane} {g : Nat → Lane}
    (hf : ∀ i < s.laneCount, f i = .ok (g i)) (hg : ∀ i < s.laneCount, s.Stores (g i)) :
    ∃ u, build s f = .ok u ∧ u.WellFormed ∧ u.shape = s ∧ ∀ i < s.laneCount, u.lane i = g i := by
  obtain ⟨u, hu⟩ := buildUpTo_exists (s := s) le_rfl fun i hi => ⟨g i, hf i hi, (hg i hi).accepts⟩
  obtain ⟨hwf, hs, hlane⟩ := build_eq_ok_iff.1 hu
  refine ⟨u, hu, hwf, hs, fun i hi => ?_⟩
  obtain ⟨l, hl, -, hul⟩ := hlane i hi
  obtain rfl := Except.ok.inj ((hf i hi).symm.trans hl)
  rw [hul, (hg i hi).normal]

/-- the loop stops at the first lane that is none -/
theorem buildUpTo_error {s : Shape} {f : Nat → Outcome Lane} {n : Nat} (hn : n ≤ s.laneCount)
    (hacc : ∀ i < n, ∀ l, f i = .ok l → s.accepts l = true) {fault : Fault} (h : buildUpTo s f n = .error fault) :
    ∃ i < n, f i = .error fault ∧ ∀ j < i, ∃ l, f j = .ok l := by
  induction n with
  | zero => cases h
  | succ n ih =>
    rw [buildUpTo_succ] at h
    cases hu : buildUpTo s f n with
    | error earlier =>
      rw [hu] at h
      obtain rfl : earlier = fault := Except.error.inj h
      obtain ⟨i, hi, hfirst⟩ := ih (by omega) (fun i hi => hacc i (by omega)) hu
      exact ⟨i, by omega, hfirst⟩
    | ok u =>
      obtain ⟨hwf, rfl, hset, -⟩ := buildUpTo_spec hu
      rw [hu] at h
      cases hl : f n with
      | error last =>
        rw [hl] at h
        obtain rfl : last = fault := Except.error.inj h
        exact ⟨n, Nat.lt_succ_self n, hl, fun j hj => (hset j hj).imp fun l hl => hl.1⟩
      | ok l =>
        obtain ⟨w, hw⟩ := hwf.setLane_exists (i := n) (by omega) (hacc n (Nat.lt_succ_self n) l hl)
        rw [hl] at h
        cases hw.symm.trans h

/-- **Why `build` makes nothing**: the first lane that is none is the answer, if all others are of the shape's kind. -/
theorem build_error {s : Shape} {f : Nat → Outcome Lane} (hacc : ∀ i < s.laneCount, ∀ l, f i = .ok l → s.accepts l = true)
    {fault : Fault} (h : build s f = .error fault) :
    ∃ i < s.laneCount, f i = .error fault ∧ ∀ j < i, ∃ l, f j = .ok l :=
  buildUpTo_error le_rfl hacc h

/-! ## The route of filled slots -/

section Filled

variable {s : Shape}

/-- integers computed for every lane, each cut to the lane width -/
theorem filledInts (hs : s.isInteger = true) (f : Nat → Int) :
    (Packed.mk s (.ints (Slots.fill s.laneCount 0 fun i => s.width.wrap (f i)))).WellFormed where
  kind := hs
  stored i hi := by
    simp only [lane, Slots.lane, Slots.getD_fill _ _ _ _ s.laneCount_le, if_pos hi]
    exact s.normalize_normalize (.int (f i))
  unused i _ hi := by
    simp only [lane, Slots.lane, Slots.getD_fill _ _ _ _ s.laneCount_le, if_neg (not_lt.2 hi)]
    exact (Shape.zeroLane_of_isInteger hs).symm

/-- four floats fill the slots, and any float is a lane -/
theorem filledFloats (hs : s.isFloat = true) (a : Vector Single 4) : (Packed.mk s (.floats a)).WellFormed where
  kind := hs
  stored _ _ := rfl
  unused i _ hi := by
    have h4 : 4 ≤ i := Shape.laneCount_of_isFloat hs ▸ hi
    simp only [lane, Slots.lane, Slots.getD_of_le a _ h4]
    exact (Shape.zeroLane_of_isFloat hs).symm

theorem filledBools (hs : s.isBool = true) (f : Nat → Bool) :
    (Packed.mk s (.bools (Slots.fill s.laneCount false f))).WellFormed where
  kind := hs
  stored _ _ := rfl
  unused i _ hi := by
    simp only [lane, Slots.lane, Slots.getD_fill _ _ _ _ s.laneCount_le, if_neg (not_lt.2 hi)]
    exact (Shape.zeroLane_of_isBool hs).symm

end Filled

/-- the slots that lanes of a kind are in -/
theorem WellFormed.ints (hv : v.WellFormed) (hs : v.shape.isInteger = true) : ∃ a, v.slots = .ints a := by
  obtain ⟨s, a | a | a⟩ := v
  · exact ⟨a, rfl⟩
  · rw [Shape.eq_float32x4 hv.kind] at hs
    cases hs
  · have hb : s.isBool = true := hv.kind
    cases s <;> cases hs <;> cases hb

theorem WellFormed.lane_int (hv : v.WellFormed) (hs : v.shape.isInteger = true) (i : Nat) : ∃ n, v.lane i = .int n := by
  obtain ⟨a, ha⟩ := hv.ints hs
  exact ⟨a.getD i 0, by rw [lane, ha]; rfl⟩

theorem WellFormed.floats (hv : v.WellFormed) (hs : v.shape.isFloat = true) : ∃ a, v.slots = .floats a := by
  obtain ⟨s, a | a | a⟩ := v
  · have hi : s.isInteger = true := hv.kind
    cases s <;> cases hs
    cases hi
  · exact ⟨a, rfl⟩
  · have hb : s.isBool = true := hv.kind
    cases s <;> cases hs
    cases hb

theorem WellFormed.bools (hv : v.WellFormed) (hs : v.shape.isBool = true) : ∃ a, v.slots = .bools a := by
  obtain ⟨s, a | a | a⟩ := v
  · have hi : s.isInteger = true := hv.kind
    cases s <;> cases hs <;> cases hi
  · rw [Shape.eq_float32x4 hv.kind] at hs
    cases hs
  · exact ⟨a, rfl⟩

theorem WellFormed.lane_bool (hv : v.WellFormed) (hs : v.shape.isBool = true) (i : Nat) :
    v.lane i = .bool (v.lane i).toBool := by
  obtain ⟨a, ha⟩ := hv.bools hs
  rw [lane, ha]
  rfl

theorem mapInts_spec {f : Int → Int} (hv : v.WellFormed) (h : v.mapInts f = .ok w) :
    w.WellFormed ∧ w.shape = v.shape ∧
      ∀ i < v.shape.laneCount, w.lane i = .int (v.shape.width.wrap (f (v.lane i).toInt)) := by
  obtain ⟨s, a | a | a⟩ := v
  · obtain rfl := Except.ok.inj h
    refine ⟨filledInts hv.kind _, rfl, fun i hi => ?_⟩
    simp only [lane, Slots.lane, Slots.getD_fill _ _ _ _ s.laneCount_le, if_pos hi, Lane.toInt]
  · cases h
  · cases h

theorem mapInts_exists (hv : v.WellFormed) (hs : v.shape.isInteger = true) (f : Int → Int) :
    ∃ w, v.mapInts f = .ok w := by
  obtain ⟨a, ha⟩ := hv.ints hs
  rw [mapInts, ha]
  exact ⟨_, rfl⟩

theorem mapFloats_spec {f : Single → Single} (hv : v.WellFormed) (h : v.mapFloats f = .ok w) :
    w.WellFormed ∧ w.shape = v.shape ∧ ∀ i < v.shape.laneCount, w.lane i = .float (f (v.lane i).toSingle) := by
  obtain ⟨s, a | a | a⟩ := v
  · cases h
  · obtain rfl := Except.ok.inj h
    refine ⟨filledFloats hv.kind _, rfl, fun i hi => ?_⟩
    have h4 : i < 4 := Shape.laneCount_of_isFloat hv.kind ▸ hi
    simp only [lane, Slots.lane, Slots.getD_map f a Binary.zero Binary.zero h4, Lane.toSingle]
  · cases h

theorem mapBools_spec {f : Bool → Bool} (hv : v.WellFormed) (h : v.mapBools f = .ok w) :
    w.WellFormed ∧ w.shape = v.shape ∧ ∀ i < v.shape.laneCount, w.lane i = .bool (f (v.lane i).toBool) := by
  obtain ⟨s, a | a | a⟩ := v
  · cases h
  · cases h
  · obtain rfl := Except.ok.inj h
    refine ⟨filledBools hv.kind _, rfl, fun i hi => ?_⟩
    simp only [lane, Slots.lane, Slots.getD_fill _ _ _ _ s.laneCount_le, if_pos hi, Lane.toBool]

section Zipped

variable {u : Packed} (hs : w.shape = v.shape)
include hs

theorem zipInts_spec {f : Int → Int → Int} (hv : v.WellFormed) (h : v.zipInts w f = .ok u) :
    u.WellFormed ∧ u.shape = v.shape ∧
      ∀ i < v.shape.laneCount, u.lane i = .int (v.shape.width.wrap (f (v.lane i).toInt (w.lane i).toInt)) := by
  obtain ⟨s, a | a | a⟩ := v <;> obtain ⟨t, b | b | b⟩ := w <;> cases h
  obtain rfl : t = s := hs
  refine ⟨filledInts hv.kind _, rfl, fun i hi => ?_⟩
  simp only [lane, Slots.lane, Slots.getD_fill _ _ _ _ t.laneCount_le, if_pos hi, Lane.toInt]

theorem zipFloats_spec {f : Single → Single → Single} (hv : v.WellFormed) (h : v.zipFloats w f = .ok u) :
    u.WellFormed ∧ u.shape = v.shape ∧
      ∀ i < v.shape.laneCount, u.lane i = .float (f (v.lane i).toSingle (w.lane i).toSingle) := by
  obtain ⟨s, a | a | a⟩ := v <;> obtain ⟨t, b | b | b⟩ := w <;> cases h
  obtain rfl : t = s := hs
  refine ⟨filledFloats hv.kind _, rfl, fun i hi => ?_⟩
  have h4 : i < 4 := Shape.laneCount_of_isFloat hv.kind ▸ hi
  simp only [lane, Slots.lane, Slots.getD_zipWith f a b Binary.zero Binary.zero Binary.zero h4, Lane.toSingle]

theorem zipBools_spec {f : Bool → Bool → Bool} (hv : v.WellFormed) (h : v.zipBools w f = .ok u) :
    u.WellFormed ∧ u.shape = v.shape ∧
      ∀ i < v.shape.laneCount, u.lane i = .bool (f (v.lane i).toBool (w.lane i).toBool) := by
  obtain ⟨s, a | a | a⟩ := v <;> obtain ⟨t, b | b | b⟩ := w <;> cases h
  obtain rfl : t = s := hs
  refine ⟨filledBools hv.kind _, rfl, fun i hi => ?_⟩
  simp only [lane, Slots.lane, Slots.getD_fill _ _ _ _ t.laneCount_le, if_pos hi, Lane.toBool]

end Zipped

end Packed

end Vector128
