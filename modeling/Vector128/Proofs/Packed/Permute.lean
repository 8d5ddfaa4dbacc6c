/-
Permutations as maps of lanes.

A list of indices stands for a map from the lanes of a result to lanes of the operands (`Shape.Picks`), and a list can be
found for every map into their range (`Shape.exists_picks`). A permutation depends on its list only through the map
(`Shape.swizzle_picks`, `Shape.shuffle_picks`). So its laws are laws about composing maps, and each is proved lane by lane
from these two lemmas.
-/
import Vector128.Proofs.Builtin.Arguments

namespace Vector128

open Outcome

namespace Shape

/-- The indices pick the lane `p i` for each lane `i` of the result. As far as they are there, their Numbers are
integers below the limit, and one that is missing is zero. -/
structure Picks (s : Shape) (limit : Nat) (indices : List Value) (p : Nat → Nat) : Prop where
  lt : ∀ i < s.laneCount, p i < limit
  given : ∀ i < s.laneCount, ∀ x, indices[i]? = some x → ∃ n, x.toNumber = .ok n ∧ n.Denotes (p i : Nat)
  missing : ∀ i < s.laneCount, indices[i]? = none → p i = 0

variable {s : Shape} {limit : Nat} {indices : List Value} {p q : Nat → Nat}

theorem Picks.laneIndex_getD (h : s.Picks limit indices p) (hlimit : limit ≤ 2 ^ 31) {i : Nat} (hi : i < s.laneCount) :
    laneIndex limit (indices.getD i (.number Binary.zero)) = .ok (p i) := by
  have hlt := h.lt i hi
  rw [List.getD_eq_getElem?_getD]
  cases hx : indices[i]? with
  | none =>
    rw [h.missing i hi hx] at hlt ⊢
    exact laneIndex_zero hlt
  | some x =>
    obtain ⟨n, hn, hdenotes⟩ := h.given i hi x hx
    exact laneIndex_of_denotes hn hdenotes hlt hlimit

/-- a list that stands for a map is accepted, and what it picks is what the map says -/
theorem Picks.exists_laneIndices (h : s.Picks limit indices p) (hlimit : limit ≤ 2 ^ 31) :
    ∃ picks, s.laneIndices limit indices = .ok picks ∧ ∀ i < s.laneCount, picks.getD i 0 = p i := by
  have haccepted : ∀ x ∈ indices.take s.laneCount, ∃ k, laneIndex limit x = .ok k := by
    intro x hx
    obtain ⟨i, hi⟩ := List.mem_iff_getElem?.1 hx
    have hlane : i < s.laneCount := (List.getElem?_eq_some_iff.1 hi).1.trans_le (List.length_take_le _ _)
    rw [List.getElem?_take_of_lt hlane] at hi
    obtain ⟨n, hn, hdenotes⟩ := h.given i hlane x hi
    exact ⟨p i, laneIndex_of_denotes hn hdenotes (h.lt i hlane) hlimit⟩
  obtain ⟨picks, hpicks⟩ := exists_mapM_ok haccepted
  refine ⟨picks, hpicks, fun i hi => ?_⟩
  have hpos : 0 < limit := (Nat.zero_le _).trans_lt (h.lt 0 s.laneCount_pos)
  exact Except.ok.inj ((laneIndices_getD hpicks hpos hi).symm.trans (h.laneIndex_getD hlimit hi))

/-- the numbers of the lanes that a map names, in order -/
theorem exists_picks (hlimit : limit ≤ 2 ^ 31) (hp : ∀ i < s.laneCount, p i < limit) :
    ∃ indices, s.Picks limit indices p := by
  refine ⟨(List.range s.laneCount).map fun i => .number (Binary.ofNat (p i)), hp, ?_, ?_⟩
  · intro i hi x hx
    rw [List.getElem?_map, List.getElem?_range hi] at hx
    obtain rfl := Option.some.inj hx
    have hexact : p i < 2 ^ 53 := ((hp i hi).trans_le hlimit).trans (by decide)
    exact ⟨_, rfl, Number.denotes_ofNat hexact⟩
  · intro i hi hx
    rw [List.getElem?_map, List.getElem?_range hi] at hx
    cases hx

/-! ## Permutations -/

/-- The outcome is the vector of the shape with these lanes. -/
def Gives (s : Shape) (g : Nat → Lane) (result : Outcome Packed) : Prop :=
  ∃ u, result = .ok u ∧ u.WellFormed ∧ u.shape = s ∧ ∀ i < s.laneCount, u.lane i = g i

theorem Gives.eq {g g' : Nat → Lane} {x y : Outcome Packed} (hx : s.Gives g x) (hy : s.Gives g' y)
    (h : ∀ i < s.laneCount, g i = g' i) : x = y := by
  obtain ⟨u, rfl, hu, hus, hulane⟩ := hx
  obtain ⟨t, rfl, ht, hts, htlane⟩ := hy
  refine congrArg Except.ok (hu.ext ht (hus.trans hts.symm) fun i hi => ?_)
  rw [hus] at hi
  rw [hulane i hi, htlane i hi, h i hi]

variable {v w : Packed}

theorem two_mul_laneCount_le (s : Shape) : 2 * s.laneCount ≤ 2 ^ 31 :=
  (Nat.mul_le_mul_left 2 s.laneCount_le).trans (by decide)

theorem swizzle_picks (hv : v.WellFormed) (hvs : v.shape = s) (h : s.Picks s.laneCount indices p) :
    s.Gives (fun i => v.lane (p i)) (s.swizzle v indices) := by
  obtain ⟨picks, hpicks, hp⟩ := h.exists_laneIndices (s.laneCount_le.trans (by decide))
  have hlane : ∀ i < s.laneCount, v.laneAt (picks.getD i 0) = .ok (v.lane (p i)) := by
    intro i hi
    rw [hp i hi, Packed.laneAt_eq_ok (hvs ▸ h.lt i hi)]
  obtain ⟨u, hu, hmade⟩ := Packed.build_lanes hlane fun i _ => hvs ▸ hv.stores (p i)
  exact ⟨u, bind_eq_ok.2 ⟨v, Packed.expect_eq_ok.2 ⟨hvs, rfl⟩, bind_eq_ok.2 ⟨picks, hpicks, hu⟩⟩, hmade⟩

theorem shuffle_picks (hv : v.WellFormed) (hvs : v.shape = s) (hw : w.WellFormed) (hws : w.shape = s)
    (h : s.Picks (2 * s.laneCount) indices p) :
    s.Gives (fun i => if p i < s.laneCount then v.lane (p i) else w.lane (p i - s.laneCount))
      (s.shuffle v w indices) := by
  obtain ⟨picks, hpicks, hp⟩ := h.exists_laneIndices s.two_mul_laneCount_le
  have hlane : ∀ i < s.laneCount, (if picks.getD i 0 < s.laneCount then v.laneAt (picks.getD i 0)
      else w.laneAt (picks.getD i 0 - s.laneCount)) =
        (.ok (if p i < s.laneCount then v.lane (p i) else w.lane (p i - s.laneCount)) : Outcome Lane) := by
    intro i hi
    have hlt := h.lt i hi
    rw [hp i hi]
    split_ifs with hfirst
    · exact Packed.laneAt_eq_ok (hvs ▸ hfirst)
    · have hsecond : p i - s.laneCount < s.laneCount := by omega
      exact Packed.laneAt_eq_ok (hws ▸ hsecond)
  have hstores : ∀ i < s.laneCount,
      s.Stores (if p i < s.laneCount then v.lane (p i) else w.lane (p i - s.laneCount)) := by
    intro i _
    split_ifs
    · exact hvs ▸ hv.stores (p i)
    · exact hws ▸ hw.stores (p i - s.laneCount)
  obtain ⟨u, hu, hmade⟩ := Packed.build_lanes hlane hstores
  exact ⟨u, bind_eq_ok.2 ⟨v, Packed.expect_eq_ok.2 ⟨hvs, rfl⟩, bind_eq_ok.2 ⟨w, Packed.expect_eq_ok.2 ⟨hws, rfl⟩,
    bind_eq_ok.2 ⟨picks, hpicks, hu⟩⟩⟩, hmade⟩

theorem call_swizzle (cast : FloatCast) (st : Store) (hvs : v.shape = s) (indices : List Value) :
    Builtin.call cast .swizzle s st (.vector v :: indices) = ((s.swizzle v indices).map .vector, st) := by
  have hoperand : Builtin.operand s (.vector v :: indices) 0 = .ok v := Packed.expect_eq_ok.2 ⟨hvs, rfl⟩
  have hfixed : Builtin.fixedLength .swizzle ≤ (Value.vector v :: indices).length := Nat.le_add_left _ _
  rw [Builtin.call_eq_dispatch hfixed, Builtin.dispatch_swizzle hfixed, hoperand]
  rfl

theorem call_shuffle (cast : FloatCast) (st : Store) (hvs : v.shape = s) (hws : w.shape = s) (indices : List Value) :
    Builtin.call cast .shuffle s st (.vector v :: .vector w :: indices) = ((s.shuffle v w indices).map .vector, st) := by
  have hfirst : Builtin.operand s (.vector v :: .vector w :: indices) 0 = .ok v := Packed.expect_eq_ok.2 ⟨hvs, rfl⟩
  have hsecond : Builtin.operand s (.vector v :: .vector w :: indices) 1 = .ok w := Packed.expect_eq_ok.2 ⟨hws, rfl⟩
  have hfixed : Builtin.fixedLength .shuffle ≤ (Value.vector v :: .vector w :: indices).length := Nat.le_add_left _ _
  rw [Builtin.call_eq_dispatch hfixed, Builtin.dispatch_shuffle hfixed, hfirst, hsecond]
  rfl

/-! ## Laws -/

/-- What the permutations of two vectors of a shape make of lists of indices. -/
structure PermutedBy (s : Shape) (v w : Packed) : Prop where
  swizzle : ∀ indices p, s.Picks s.laneCount indices p → s.Gives (fun i => v.lane (p i)) (s.swizzle v indices)
  shuffle : ∀ indices p, s.Picks (2 * s.laneCount) indices p →
    s.Gives (fun i => if p i < s.laneCount then v.lane (p i) else w.lane (p i - s.laneCount)) (s.shuffle v w indices)
  /-- one swizzle after another is the swizzle by the composed map -/
  swizzle_swizzle : ∀ first second composed p q, s.Picks s.laneCount first p → s.Picks s.laneCount second q →
    s.Picks s.laneCount composed (fun i => p (q i)) →
    (do s.swizzle (← s.swizzle v first) second) = s.swizzle v composed
  /-- a shuffle that stays within the first vector -/
  shuffle_first : ∀ indices p, s.Picks (2 * s.laneCount) indices p → (∀ i < s.laneCount, p i < s.laneCount) →
    s.shuffle v w indices = s.swizzle v indices
  /-- a shuffle of a vector with itself -/
  shuffle_self : ∀ indices folded p, s.Picks (2 * s.laneCount) indices p →
    s.Picks s.laneCount folded (fun i => p i % s.laneCount) → s.shuffle v v indices = s.swizzle v folded
  /-- a shuffle with its vectors exchanged -/
  shuffle_swap : ∀ indices swapped p, s.Picks (2 * s.laneCount) indices p →
    s.Picks (2 * s.laneCount) swapped (fun i => (p i + s.laneCount) % (2 * s.laneCount)) →
    s.shuffle w v swapped = s.shuffle v w indices
  /-- whatever stands behind the indices of the lanes -/
  take : ∀ indices, s.swizzle v (indices.take s.laneCount) = s.swizzle v indices ∧
    s.shuffle v w (indices.take s.laneCount) = s.shuffle v w indices

theorem permutedBy (hv : v.WellFormed) (hvs : v.shape = s) (hw : w.WellFormed) (hws : w.shape = s) :
    s.PermutedBy v w where
  swizzle indices p h := swizzle_picks hv hvs h
  shuffle indices p h := shuffle_picks hv hvs hw hws h
  swizzle_swizzle := by
    intro first second composed p q hp hq hpq
    obtain ⟨u, hu, huwf, hus, hulane⟩ := swizzle_picks hv hvs hp
    rw [hu]
    refine (swizzle_picks huwf hus hq).eq (swizzle_picks hv hvs hpq) fun i hi => ?_
    exact hulane (q i) (hq.lt i hi)
  shuffle_first := by
    intro indices p h hfirst
    have hswizzle : s.Picks s.laneCount indices p := ⟨hfirst, h.given, h.missing⟩
    refine (shuffle_picks hv hvs hw hws h).eq (swizzle_picks hv hvs hswizzle) fun i hi => ?_
    exact if_pos (hfirst i hi)
  shuffle_self := by
    intro indices folded p h hfolded
    refine (shuffle_picks hv hvs hv hvs h).eq (swizzle_picks hv hvs hfolded) fun i hi => ?_
    have hlt := h.lt i hi
    split_ifs with hfirst
    · rw [Nat.mod_eq_of_lt hfirst]
    · rw [Nat.mod_eq_sub_mod (by omega), Nat.mod_eq_of_lt (by omega)]
  shuffle_swap := by
    intro indices swapped p h hswapped
    refine (shuffle_picks hw hws hv hvs hswapped).eq (shuffle_picks hv hvs hw hws h) fun i hi => ?_
    have hlt := h.lt i hi
    -- adding the number of lanes leaves the range exactly if the index was one of the second vector
    by_cases hfirst : p i < s.laneCount
    · rw [Nat.mod_eq_of_lt (by omega), if_pos hfirst, if_neg (by omega), Nat.add_sub_cancel]
    · have hwrap : (p i + s.laneCount) % (2 * s.laneCount) = p i - s.laneCount := by
        rw [Nat.mod_eq_sub_mod (by omega), Nat.mod_eq_of_lt (by omega)]
        omega
      rw [hwrap, if_neg hfirst, if_pos (by omega)]
  take indices := by
    constructor
    · rw [Shape.swizzle, laneIndices_take, Shape.swizzle]
    · rw [Shape.shuffle, laneIndices_take, Shape.shuffle]

end Shape

/-- **Permutations select lanes by maps that compose.** A list of indices acts as the map that it stands for, bit by bit,
and all maps into the lanes of the operands have lists. Two swizzles compose their maps. A shuffle is a swizzle where it
uses one vector only, and exchanging its vectors shifts the map by the number of lanes. What stands behind the indices of
the lanes has no effect, nor is it refused. Calls permute the vectors that come first in their arguments. -/
theorem permutations_compose {s : Shape} {v w : Packed} (hv : v.WellFormed) (hvs : v.shape = s) (hw : w.WellFormed)
    (hws : w.shape = s) :
    s.PermutedBy v w ∧
    (∀ limit p, limit ≤ 2 * s.laneCount → (∀ i < s.laneCount, p i < limit) → ∃ indices, s.Picks limit indices p) ∧
    ∀ cast st indices,
      Builtin.call cast .swizzle s st (.vector v :: indices) = ((s.swizzle v indices).map .vector, st) ∧
      Builtin.call cast .shuffle s st (.vector v :: .vector w :: indices) =
        ((s.shuffle v w indices).map .vector, st) := by
  refine ⟨Shape.permutedBy hv hvs hw hws, ?_, ?_⟩
  · intro limit p hlimit hp
    exact Shape.exists_picks (hlimit.trans s.two_mul_laneCount_le) hp
  · intro cast st indices
    exact ⟨Shape.call_swizzle cast st hvs indices, Shape.call_shuffle cast st hvs hws indices⟩

/-- The first lane of the second vector, the last one, a negative zero as an index, and `undefined` behind the indices;
with the vectors exchanged the last index is a zero, and missing. -/
theorem permutations_compose_swap :
    let v : Packed := ⟨.int32x4, .ints #v[1, 2, 3, 4, 0, 0, 0, 0, 0, 0, 0, 0, 0, 0, 0, 0]⟩
    let w : Packed := ⟨.int32x4, .ints #v[5, 6, 7, 8, 0, 0, 0, 0, 0, 0, 0, 0, 0, 0, 0, 0]⟩
    let u : Packed := ⟨.int32x4, .ints #v[5, 1, 8, 5, 0, 0, 0, 0, 0, 0, 0, 0, 0, 0, 0, 0]⟩
    let number : Nat → Value := fun k => .number (Binary.ofNat k)
    let indices : List Value := [number 4, .number (Binary.ofInt 0).neg, number 7, number 4]
    v.WellFormed ∧ w.WellFormed ∧ Shape.shuffle .int32x4 v w (indices ++ [.undefined]) = .ok u ∧
      Shape.shuffle .int32x4 v w indices = .ok u ∧ Shape.shuffle .int32x4 w v [number 0, number 4, number 3] = .ok u := by
  intro v w u number indices
  have hv : v.WellFormed := by decide
  have hw : w.WellFormed := by decide
  have hu : Shape.shuffle .int32x4 v w (indices ++ [.undefined]) = .ok u := by decide +kernel
  let p : Nat → Nat := fun i => [4, 0, 7, 4].getD i 0
  have hpicks : Shape.Picks .int32x4 8 indices p := by
    refine ⟨by decide, fun i hi x hx => ?_, by decide⟩
    have hi : i < 4 := hi
    interval_cases i <;> obtain rfl := Option.some.inj hx <;> exact ⟨_, rfl, by decide +kernel, by decide +kernel⟩
  have hswapped : Shape.Picks .int32x4 8 [number 0, number 4, number 3] fun i => (p i + 4) % 8 := by
    refine ⟨by decide, fun i hi x hx => ?_, by decide⟩
    have hi : i < 4 := hi
    interval_cases i
    case «3» => cases hx
    all_goals obtain rfl := Option.some.inj hx; exact ⟨_, rfl, by decide +kernel, by decide +kernel⟩
  obtain ⟨hperm, -⟩ := permutations_compose (s := .int32x4) hv rfl hw rfl
  have htake := (hperm.take (indices ++ [.undefined])).2
  have hindices : Shape.shuffle .int32x4 v w indices = .ok u := htake.trans hu
  exact ⟨hv, hw, hu, hindices, (hperm.shuffle_swap indices _ p hpicks hswapped).trans hindices⟩

end Vector128
