/-
Which lanes the accesses read and replace.

- `Shape.swizzle_lanes`, `Shape.shuffle_lanes`: a permutation moves the lanes that its indices name, and a missing index
  is a zero.
- `Shape.accessesNamed`, `laneIndex_modular`: so do the other accesses, and what is accepted as an index where.
-/
import Vector128.Proofs.Packed.Lens

namespace Vector128

open Outcome

theorem getElem?_mapM {α β : Type} {f : α → Outcome β} {row : List α} {results : List β}
    (h : row.mapM f = .ok results) (i : Nat) : row[i]?.map f = results[i]?.map .ok := by
  induction row generalizing results i with
  | nil =>
    obtain rfl := Except.ok.inj h
    rfl
  | cons a row ih =>
    rw [List.mapM_cons] at h
    obtain ⟨b, hb, h⟩ := bind_eq_ok.1 h
    obtain ⟨rest, hrest, h⟩ := bind_eq_ok.1 h
    obtain rfl := pure_eq_ok.1 h
    cases i with
    | zero => exact congrArg some hb
    | succ i => exact ih hrest i

theorem exists_mapM_ok {α β : Type} {f : α → Outcome β} {row : List α} (h : ∀ a ∈ row, ∃ b, f a = .ok b) :
    ∃ results, row.mapM f = .ok results := by
  induction row with
  | nil => exact ⟨[], rfl⟩
  | cons a row ih =>
    obtain ⟨b, hb⟩ := h a List.mem_cons_self
    obtain ⟨rest, hrest⟩ := ih fun a' ha' => h a' (List.mem_cons_of_mem a ha')
    rw [List.mapM_cons]
    exact ⟨b :: rest, bind_eq_ok.2 ⟨b, hb, bind_eq_ok.2 ⟨rest, hrest, rfl⟩⟩⟩

namespace Shape

variable {s : Shape} {limit : Nat} {indices : List Value} {picks : List Nat}

/-- an index that was accepted names the lane that is picked, and a missing one the first lane -/
theorem laneIndices_getD (h : s.laneIndices limit indices = .ok picks) (hlimit : 0 < limit) {i : Nat}
    (hi : i < s.laneCount) : laneIndex limit (indices.getD i (.number Binary.zero)) = .ok (picks.getD i 0) := by
  have hpick := getElem?_mapM h i
  rw [List.getElem?_take_of_lt hi] at hpick
  rw [List.getD_eq_getElem?_getD, List.getD_eq_getElem?_getD]
  cases hx : indices[i]? with
  | none =>
    rw [hx] at hpick
    rw [Option.map_eq_none_iff.1 hpick.symm]
    exact laneIndex_zero hlimit
  | some x =>
    rw [hx] at hpick
    obtain ⟨pick, hp, hok⟩ := Option.map_eq_some_iff.1 hpick.symm
    rw [hp]
    exact hok.symm

/-- no more indices are looked at than there are lanes -/
theorem laneIndices_take (s : Shape) (limit : Nat) (indices : List Value) :
    s.laneIndices limit (indices.take s.laneCount) = s.laneIndices limit indices := by
  rw [laneIndices, List.take_take, min_self, laneIndices]

theorem laneIndices_append (h : s.laneCount ≤ indices.length) (limit : Nat) (more : List Value) :
    s.laneIndices limit (indices ++ more) = s.laneIndices limit indices := by
  rw [← laneIndices_take, List.take_append_of_le_length h, laneIndices_take]

/-- zeros behind the indices pick the first lane -/
theorem laneIndices_append_zeros (hlimit : 0 < limit) (indices : List Value) (n : Nat) :
    ∃ m, s.laneIndices limit (indices ++ List.replicate n (.number Binary.zero)) =
      (s.laneIndices limit indices).map (· ++ List.replicate m 0) := by
  refine ⟨min (s.laneCount - indices.length) n, ?_⟩
  have hzeros : ∀ m, (List.replicate m (Value.number Binary.zero)).mapM (laneIndex limit) =
      .ok (List.replicate m 0) := by
    intro m
    rw [mapM_eq_pure (g := fun _ => 0) fun x hx => by rw [List.eq_of_mem_replicate hx]; exact laneIndex_zero hlimit,
      List.map_replicate]
    rfl
  rw [laneIndices, List.take_append, List.take_replicate, List.mapM_append, hzeros, laneIndices]
  cases (indices.take s.laneCount).mapM (laneIndex limit) <;> rfl

/-- the refusal of an index that is looked at after others were accepted -/
theorem laneIndices_append_undefined (h : indices.length < s.laneCount)
    (hpicks : s.laneIndices limit indices = .ok picks) :
    s.laneIndices limit (indices ++ [.undefined]) = refuse .laneIndex := by
  have hall : (indices ++ [Value.undefined]).take s.laneCount = indices ++ [.undefined] := by
    rw [List.take_of_length_le]
    rwa [List.length_append, List.length_singleton]
  rw [laneIndices, List.take_of_length_le h.le] at hpicks
  rw [laneIndices, hall, List.mapM_append, hpicks, List.mapM_cons, laneIndex_undefined]
  rfl

end Shape

/-! ## Permutations -/

namespace Shape

variable {s : Shape} {indices : List Value} {v w u : Packed}

theorem getD_append_zeros (picks : List Nat) (m i : Nat) : (picks ++ List.replicate m 0).getD i 0 = picks.getD i 0 := by
  rw [List.getD_eq_getElem?_getD, List.getD_eq_getElem?_getD, List.getElem?_append]
  split_ifs with hi
  · rfl
  · rw [List.getElem?_replicate, List.getElem?_eq_none (not_lt.1 hi)]
    split_ifs <;> rfl

theorem swizzle_append (h : s.laneCount ≤ indices.length) (v : Packed) (more : List Value) :
    s.swizzle v (indices ++ more) = s.swizzle v indices := by
  rw [swizzle, laneIndices_append h, swizzle]

theorem shuffle_append (h : s.laneCount ≤ indices.length) (v w : Packed) (more : List Value) :
    s.shuffle v w (indices ++ more) = s.shuffle v w indices := by
  rw [shuffle, laneIndices_append h, shuffle]

/-- **A missing index is a zero.** -/
theorem swizzle_append_zeros (s : Shape) (v : Packed) (indices : List Value) (n : Nat) :
    s.swizzle v (indices ++ List.replicate n (.number Binary.zero)) = s.swizzle v indices := by
  obtain ⟨m, hm⟩ := laneIndices_append_zeros s.laneCount_pos indices n
  rw [swizzle, hm, swizzle]
  cases s.laneIndices s.laneCount indices with
  | error fault => rfl
  | ok picks => simp only [Except.map, bind, Except.bind, getD_append_zeros]

theorem shuffle_append_zeros (s : Shape) (v w : Packed) (indices : List Value) (n : Nat) :
    s.shuffle v w (indices ++ List.replicate n (.number Binary.zero)) = s.shuffle v w indices := by
  have hpos : 0 < 2 * s.laneCount := Nat.mul_pos (by decide) s.laneCount_pos
  obtain ⟨m, hm⟩ := laneIndices_append_zeros hpos indices n
  rw [shuffle, hm, shuffle]
  cases s.laneIndices (2 * s.laneCount) indices with
  | error fault => rfl
  | ok picks => simp only [Except.map, bind, Except.bind, getD_append_zeros]

theorem swizzle_append_undefined (h : indices.length < s.laneCount) (hu : s.swizzle v indices = .ok u) :
    s.swizzle v (indices ++ [.undefined]) = refuse .laneIndex := by
  obtain ⟨v', hv', hu⟩ := bind_eq_ok.1 hu
  obtain ⟨picks, hpicks, -⟩ := bind_eq_ok.1 hu
  rw [swizzle, hv', laneIndices_append_undefined h hpicks]
  rfl

theorem shuffle_append_undefined (h : indices.length < s.laneCount) (hu : s.shuffle v w indices = .ok u) :
    s.shuffle v w (indices ++ [.undefined]) = refuse .laneIndex := by
  obtain ⟨v', hv', hu⟩ := bind_eq_ok.1 hu
  obtain ⟨w', hw', hu⟩ := bind_eq_ok.1 hu
  obtain ⟨picks, hpicks, -⟩ := bind_eq_ok.1 hu
  rw [shuffle, hv', hw', laneIndices_append_undefined h hpicks]
  rfl

theorem eq_lane_of_laneAt (hv : v.WellFormed) (hs : v.shape = s) {k : Nat} {l : Lane} (h : v.laneAt k = .ok l) :
    s.normalize l = v.lane k := by
  unfold Packed.laneAt at h
  split_ifs at h
  obtain rfl := Except.ok.inj h
  rw [← hs]
  exact hv.normalize_lane k

/-- **A swizzle moves the lanes that are named.** -/
theorem swizzle_lanes (hv : v.WellFormed) (h : s.swizzle v indices = .ok u) {i : Nat} (hi : i < s.laneCount) :
    ∃ k, laneIndex s.laneCount (indices.getD i (.number Binary.zero)) = .ok k ∧ u.lane i = v.lane k := by
  obtain ⟨v', hv', h⟩ := bind_eq_ok.1 h
  obtain ⟨hs, rfl⟩ := Packed.expect_eq_ok.1 hv'
  obtain ⟨picks, hpicks, h⟩ := bind_eq_ok.1 h
  obtain ⟨-, -, hlane⟩ := Packed.build_eq_ok_iff.1 h
  obtain ⟨l, hl, -, hul⟩ := hlane i hi
  exact ⟨_, laneIndices_getD hpicks s.laneCount_pos hi, hul.trans (eq_lane_of_laneAt hv hs hl)⟩

/-- **A shuffle moves the lanes that are named**, those of the second vector counting on from the first. -/
theorem shuffle_lanes (hv : v.WellFormed) (hw : w.WellFormed) (h : s.shuffle v w indices = .ok u) {i : Nat}
    (hi : i < s.laneCount) : ∃ k, laneIndex (2 * s.laneCount) (indices.getD i (.number Binary.zero)) = .ok k ∧
      u.lane i = if k < s.laneCount then v.lane k else w.lane (k - s.laneCount) := by
  obtain ⟨v', hv', h⟩ := bind_eq_ok.1 h
  obtain ⟨hvs, rfl⟩ := Packed.expect_eq_ok.1 hv'
  obtain ⟨w', hw', h⟩ := bind_eq_ok.1 h
  obtain ⟨hws, rfl⟩ := Packed.expect_eq_ok.1 hw'
  obtain ⟨picks, hpicks, h⟩ := bind_eq_ok.1 h
  obtain ⟨-, -, hlane⟩ := Packed.build_eq_ok_iff.1 h
  obtain ⟨l, hl, -, hul⟩ := hlane i hi
  refine ⟨_, laneIndices_getD hpicks (Nat.mul_pos (by decide) s.laneCount_pos) hi, hul.trans ?_⟩
  dsimp only at hl
  split_ifs at hl ⊢
  · exact eq_lane_of_laneAt hv hvs hl
  · exact eq_lane_of_laneAt hw hws hl

/-- The accesses to the lanes of two vectors of a shape, by the lanes that the indices name. -/
structure AccessesNamed (s : Shape) (v w : Packed) : Prop where
  extract : ∀ a y, s.extractLane v a = .ok y → ∃ k, a.NamesLane s.laneCount k ∧ y = s.laneValue (v.lane k)
  replace : ∀ a x u, s.replaceLane v a x = .ok u → ∃ k l, a.NamesLane s.laneCount k ∧ x.toLane s = .ok l ∧
    ∀ j < s.laneCount, u.lane j = if j = k then l else v.lane j
  swizzle : ∀ indices u, s.swizzle v indices = .ok u → ∀ i < s.laneCount, ∃ k,
    (indices.getD i (.number Binary.zero)).NamesLane s.laneCount k ∧ u.lane i = v.lane k
  shuffle : ∀ indices u, s.shuffle v w indices = .ok u → ∀ i < s.laneCount, ∃ k,
    (indices.getD i (.number Binary.zero)).NamesLane (2 * s.laneCount) k ∧
      u.lane i = if k < s.laneCount then v.lane k else w.lane (k - s.laneCount)

theorem accessesNamed (hv : v.WellFormed) (hw : w.WellFormed) : s.AccessesNamed v w where
  extract := by
    intro a y h
    obtain ⟨v', hv', h⟩ := bind_eq_ok.1 h
    obtain ⟨hs, rfl⟩ := Packed.expect_eq_ok.1 hv'
    obtain ⟨k, hk, h⟩ := bind_eq_ok.1 h
    obtain ⟨l, hl, h⟩ := bind_eq_ok.1 h
    rw [Packed.laneAt_eq_ok (hs ▸ laneIndex_lt hk)] at hl
    obtain rfl := Except.ok.inj hl
    exact ⟨k, laneIndex_eq_ok_iff.1 hk, (pure_eq_ok.1 h).symm⟩
  replace := by
    intro a x u h
    obtain ⟨v', hv', h⟩ := bind_eq_ok.1 h
    obtain ⟨hs, rfl⟩ := Packed.expect_eq_ok.1 hv'
    obtain ⟨k, hk, h⟩ := bind_eq_ok.1 h
    obtain ⟨l, hl, hbuild⟩ := bind_eq_ok.1 h
    obtain ⟨u', hu', -, -, hlane⟩ := replaceLane_lanes hv hs hk hl
    have hreplace : s.replaceLane v a x = .ok u :=
      bind_eq_ok.2 ⟨v, hv', bind_eq_ok.2 ⟨k, hk, bind_eq_ok.2 ⟨l, hl, hbuild⟩⟩⟩
    obtain rfl : u' = u := Except.ok.inj (hu'.symm.trans hreplace)
    exact ⟨k, l, laneIndex_eq_ok_iff.1 hk, hl, hlane⟩
  swizzle := by
    intro indices u h i hi
    obtain ⟨k, hk, hlane⟩ := swizzle_lanes hv h hi
    exact ⟨k, laneIndex_eq_ok_iff.1 hk, hlane⟩
  shuffle := by
    intro indices u h i hi
    obtain ⟨k, hk, hlane⟩ := shuffle_lanes hv hw h hi
    exact ⟨k, laneIndex_eq_ok_iff.1 hk, hlane⟩

end Shape

/-- **Lane indices are judged whole and taken modulo `2 ^ 32`.** A vector is no index. Any other value is one if its
Number is an integer from 0 to the largest length and what 32 bits hold of that is a lane, and it is out of bounds
otherwise. So an integer below `2 ^ 32` is accepted for itself alone, while a greater one can stand for a lane of another
number. The accesses read and replace the lanes that their indices name. -/
theorem laneIndex_modular {s : Shape} {v w : Packed} (limit : Nat) (hv : v.WellFormed) (hw : w.WellFormed) :
    (∀ u, laneIndex limit (.vector u) = refuse .vectorAsNumber) ∧
    (∀ x, (∀ u, x ≠ .vector u) → ∃ n, x.toNumber = .ok n ∧
      (∀ k, laneIndex limit x = .ok k ↔ x.NamesLane limit k) ∧
      ((∃ k, laneIndex limit x = .ok k) ∨ laneIndex limit x = refuse .laneIndex) ∧
      (limit ≤ 2 ^ 31 → ((∀ k, laneIndex limit x = .ok k ↔ n.Denotes (k : Nat) ∧ k < limit) ↔
        ∀ m : Nat, n.Denotes m → 2 ^ 32 ≤ m → m ≤ Number.maxSafeInteger → limit ≤ m % 2 ^ 32))) ∧
    s.AccessesNamed v w := by
  refine ⟨fun u => rfl, ?_, Shape.accessesNamed hv hw⟩
  intro x hx
  obtain ⟨n, hn⟩ := exists_toNumber hx
  exact ⟨n, hn, fun k => laneIndex_eq_ok_iff, laneIndex_ok_or_refuse hn, fun hlimit => laneIndex_exact_iff hlimit hn⟩

/-- Of four lanes, the index 4294967297 names the second one. -/
theorem laneIndex_modular_beyond :
    let v : Packed := ⟨.int32x4, .ints #v[10, 20, 30, 40, 0, 0, 0, 0, 0, 0, 0, 0, 0, 0, 0, 0]⟩
    let beyond : Value := .number (Binary.ofNat 4294967297)
    v.WellFormed ∧ beyond.NamesLane 4 1 ∧ Shape.extractLane .int32x4 v beyond = .ok (.number (Binary.ofInt 20)) ∧
      ∃ k, beyond.NamesLane 4 k ∧ Value.number (Binary.ofInt 20) = Shape.laneValue .int32x4 (v.lane k) := by
  intro v beyond
  have hv : v.WellFormed := by decide
  have hindex : laneIndex 4 beyond = .ok 1 := by decide +kernel
  have hextract : Shape.extractLane .int32x4 v beyond = .ok (.number (Binary.ofInt 20)) := by decide +kernel
  obtain ⟨-, hnames, haccess⟩ := laneIndex_modular (s := .int32x4) 4 hv hv
  obtain ⟨-, -, hiff, -⟩ := hnames beyond nofun
  exact ⟨hv, (hiff 1).1 hindex, hextract, haccess.extract _ _ hextract⟩

/-- The integer 4294967297 is accepted among four lanes, and as the index 1. -/
theorem laneIndex_wraps : ∃ n : Double, n.Denotes 4294967297 ∧ laneIndex 4 (.number n) = .ok 1 ∧ ¬n.Denotes 1 := by
  have hn : (Binary.ofNat 4294967297 : Double).Denotes 4294967297 := Number.denotes_ofNat (by decide)
  refine ⟨_, hn, by decide +kernel, fun hone => ?_⟩
  exact absurd (hn.unique hone) (by decide)

end Vector128
