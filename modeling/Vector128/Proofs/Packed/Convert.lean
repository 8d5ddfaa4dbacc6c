/-
Conversion by value: what it makes, and where it is a conversion by bits.

A conversion looks at what scripts see of each lane and refuses the first one that the target cannot have. So it makes
the one vector of the converted lanes (`Shape.convert_eq_ok_iff`), or gives the reason why the first lane that does not
convert is none (`Shape.convert_error`). Between the two signs of one lane width the value seen
is the stored one, or beyond the range of the target if the leading bit is set. That makes the two conversions agree on
the vectors without leading bits (`convert_agrees_with_reinterpret`).
-/
import Vector128.Proofs.Packed.Lens

namespace Vector128

open Outcome

namespace Shape

variable {cast : FloatCast} {s t : Shape} {v u : Packed} {l m : Lane} {n : Int}

theorem stores_numberLane {check : Int → Int → Except ConversionFault Int} {x : Single}
    (h : t.numberLane check x = .ok m) : t.Stores m := by
  refine ⟨accepts_numberLane h, ?_⟩
  unfold numberLane at h
  split at h
  · obtain ⟨k, -, rfl⟩ := map_eq_ok.1 h
    exact t.normalize_normalize (.int k)
  · obtain rfl := Except.ok.inj h
    exact normalize_cast t _

theorem stores_convertLane (h : t.convertLane cast s l = .ok m) : t.Stores m := by
  cases l with
  | float x => exact stores_numberLane (mapError_eq_ok.1 h)
  | int n => exact stores_numberLane (mapError_eq_ok.1 h)
  | bool b => cases h

theorem convertsFrom_iff : t.convertsFrom s = true ↔
    s ≠ t ∧ s.laneCount = t.laneCount ∧ s.isBool = false ∧ t.isBool = false := by
  simp only [convertsFrom, Bool.and_eq_true, bne_iff_ne, beq_iff_eq, Bool.not_eq_true', and_assoc]

/-- where lanes convert at all, the vector is built of converted lanes -/
theorem convert_eq_build (ht : t.convertsFrom s = true) (hvs : v.shape = s) :
    t.convert cast s v = Packed.build t fun i => t.convertLane cast s (v.lane i) := by
  obtain ⟨-, hcount, -, -⟩ := convertsFrom_iff.1 ht
  rw [convert, if_pos ht, Packed.expect_eq_ok.2 ⟨hvs, rfl⟩]
  apply Packed.build_congr
  intro i hi
  rw [Packed.laneAt_eq_ok (hvs ▸ hcount ▸ hi)]
  rfl

/-- **What a conversion makes**, where lanes convert at all: the one vector whose lanes are the converted ones. -/
theorem convert_eq_ok_iff (ht : t.convertsFrom s = true) (hvs : v.shape = s) : t.convert cast s v = .ok u ↔
    u.WellFormed ∧ u.shape = t ∧ ∀ i < t.laneCount, t.convertLane cast s (v.lane i) = .ok (u.lane i) := by
  rw [convert_eq_build ht hvs, Packed.build_eq_ok_iff]
  refine and_congr_right fun _ => and_congr_right fun _ => forall₂_congr fun i _ => ?_
  constructor
  · rintro ⟨l, hl, -, hul⟩
    rw [hul, (stores_convertLane hl).normal, hl]
  · intro h
    have hstores := stores_convertLane h
    exact ⟨u.lane i, h, hstores.accepts, hstores.normal.symm⟩

/-- **Why a conversion makes nothing**, where lanes convert at all: the first lane that does not convert. -/
theorem convert_error (ht : t.convertsFrom s = true) (hvs : v.shape = s) {fault : Fault}
    (h : t.convert cast s v = .error fault) : ∃ i < t.laneCount, t.convertLane cast s (v.lane i) = .error fault ∧
      ∀ j < i, ∃ m, t.convertLane cast s (v.lane j) = .ok m := by
  rw [convert_eq_build ht hvs] at h
  exact Packed.build_error (fun i _ l hl => accepts_convertLane hl) h

/-! ## The other sign -/

theorem twoPow_bits (w : LaneWidth) : twoPow w.bits = 2 * twoPow (w.bits - 1) := by
  cases w <;> rfl

/-- the stored integers of a lane width, in terms of the half of its values -/
theorem stored_bounds {w : LaneWidth} (hn : w.wrap n = n) :
    -(twoPow (w.bits - 1) : Int) ≤ n ∧ n < twoPow (w.bits - 1) := by
  obtain ⟨hlow, hhigh⟩ := w.wrap_bounds n
  rw [hn] at hlow hhigh
  rw [show (twoPow (w.bits - 1) : Int) = 2 ^ (w.bits - 1) from Nat.cast_pow 2 _]
  exact ⟨hlow, hhigh⟩

theorem visible_of_signed (hs : s.kind = .signed) (n : Int) : s.visible n = n := by
  rw [visible, isUnsigned, hs]
  rfl

theorem visible_of_nonneg (hn : s.width.wrap n = n) (h : 0 ≤ n) : s.visible n = n := by
  obtain ⟨-, hhigh⟩ := stored_bounds hn
  have hdouble := twoPow_bits s.width
  unfold visible
  split_ifs
  · rw [LaneWidth.zeroExtend, Int.emod_eq_of_lt h (by omega), Int.toNat_of_nonneg h]
  · rfl

/-- an unsigned lane with its leading bit set is seen above the values that have a sign -/
theorem visible_of_neg (hs : s.kind = .unsigned) (hn : s.width.wrap n = n) (h : n < 0) :
    (twoPow (s.width.bits - 1) : Int) ≤ s.visible n := by
  obtain ⟨hlow, -⟩ := stored_bounds hn
  have hdouble := twoPow_bits s.width
  have hmod : n % twoPow s.width.bits = n + twoPow s.width.bits := by
    rw [← Int.add_emod_right, Int.emod_eq_of_lt (by omega) (by omega)]
  rw [visible, isUnsigned, hs, if_pos (by rfl), LaneWidth.zeroExtend, hmod, Int.toNat_of_nonneg (by omega)]
  omega

/-- **Between the signs of one lane width, a lane converts exactly if its leading bit is clear**, and then to itself. -/
theorem convertLane_other_sign (hs : s.isInteger = true) (ht : t.isInteger = true) (hst : t.width = s.width)
    (hne : s.kind ≠ t.kind) (hn : s.width.wrap n = n) :
    t.convertLane cast s (.int n) = if 0 ≤ n then .ok (.int n) else refuse (.conversion .outOfRange) := by
  obtain ⟨hlow, hhigh⟩ := stored_bounds hn
  have hdouble := twoPow_bits s.width
  have hrange : ∃ low high, t.range? = some (low, high) ∧ (low ≤ s.visible n ∧ s.visible n ≤ high ↔ 0 ≤ n) := by
    rcases kind_of_isInteger ht with htk | htk
    · -- a signed target: what an unsigned lane shows is small enough
      have hsk : s.kind = .unsigned := (kind_of_isInteger hs).resolve_left fun h => hne (h.trans htk.symm)
      refine ⟨_, _, by rw [range?, htk], ?_⟩
      rw [hst]
      rcases lt_or_ge n 0 with hneg | hpos
      · have := visible_of_neg hsk hn hneg
        omega
      · rw [visible_of_nonneg hn hpos]
        omega
    · -- an unsigned target: what a signed lane shows is not negative
      have hsk : s.kind = .signed := (kind_of_isInteger hs).resolve_right fun h => hne (h.trans htk.symm)
      refine ⟨_, _, by rw [range?, htk], ?_⟩
      rw [hst, visible_of_signed hsk]
      omega
  obtain ⟨low, high, hrange, hfits⟩ := hrange
  simp only [convertLane, numberLane, hrange, narrow]
  split_ifs with hin hpos hpos
  · rw [visible_of_nonneg hn hpos, Except.map, hst, hn]
    rfl
  · exact absurd (hfits.1 hin) hpos
  · exact absurd (hfits.2 hpos) hin
  · rfl

theorem convertsFrom_other_sign (hs : s.isInteger = true) (ht : t.isInteger = true) (hst : t.width = s.width)
    (hne : s.kind ≠ t.kind) : t.convertsFrom s = true :=
  convertsFrom_iff.2 ⟨fun h => hne (congrArg kind h), (laneCount_congr hst).symm, isBool_of_isInteger hs,
    isBool_of_isInteger ht⟩

/-- a conversion between the signs of one lane width keeps the stored lanes, which have no sign bit -/
theorem convert_other_sign_iff (hs : s.isInteger = true) (ht : t.isInteger = true) (hst : t.width = s.width)
    (hne : s.kind ≠ t.kind) (hv : v.WellFormed) (hvs : v.shape = s) : t.convert cast s v = .ok u ↔
      u.WellFormed ∧ u.shape = t ∧ ∀ i < s.laneCount, 0 ≤ (v.lane i).toInt ∧ u.lane i = v.lane i := by
  rw [convert_eq_ok_iff (convertsFrom_other_sign hs ht hst hne) hvs, laneCount_congr hst]
  refine and_congr_right fun _ => and_congr_right fun _ => forall₂_congr fun i _ => ?_
  obtain ⟨n, hl⟩ := hv.lane_int (hvs ▸ hs) i
  have hn := hv.normalize_lane i
  rw [hl, hvs] at hn
  rw [hl, convertLane_other_sign hs ht hst hne (Lane.int.inj hn)]
  show _ ↔ 0 ≤ n ∧ _
  split_ifs with hpos
  · rw [Except.ok.injEq, eq_comm, and_iff_right hpos]
  · exact ⟨nofun, fun h => absurd h.1 hpos⟩

end Shape

/-- **Conversion by value and by bits agree where both apply.** From an integer shape to the one of the other sign with
lanes of the same width, a vector converts by value exactly if no stored lane is negative. Then the result is the
reinterpretation of its bits, and it converts back to the vector. -/
theorem convert_agrees_with_reinterpret (cast : FloatCast) {s t : Shape} (hs : s.isInteger = true)
    (ht : t.isInteger = true) (hst : t.width = s.width) (hne : s.kind ≠ t.kind) {v : Packed} (hv : v.WellFormed)
    (hvs : v.shape = s) :
    ((∃ u, t.convert cast s v = .ok u) ↔ ∀ i < s.laneCount, 0 ≤ (v.lane i).toInt) ∧
    ∀ u, t.convert cast s v = .ok u →
      t.reinterpret s v = .ok u ∧ (∀ i < s.laneCount, u.lane i = v.lane i) ∧ s.convert cast t u = .ok v := by
  have hshape : s ≠ t := fun h => hne (congrArg Shape.kind h)
  have hcount := Shape.laneCount_congr hst
  constructor
  · constructor
    · rintro ⟨u, hu⟩ i hi
      exact (((Shape.convert_other_sign_iff hs ht hst hne hv hvs).1 hu).2.2 i hi).1
    · intro hpos
      obtain ⟨u, hu, -⟩ := Shape.reinterpret_exists (Shape.isBool_of_isInteger ht) (Shape.isBool_of_isInteger hs) hshape
        hv hvs
      obtain ⟨hwf, hut, hlane⟩ := (Shape.reinterpret_lanes hs ht hst hshape hv hvs).1 hu
      exact ⟨u, (Shape.convert_other_sign_iff hs ht hst hne hv hvs).2 ⟨hwf, hut, fun i hi => ⟨hpos i hi, hlane i hi⟩⟩⟩
  · intro u hu
    obtain ⟨hwf, hut, hlane⟩ := (Shape.convert_other_sign_iff hs ht hst hne hv hvs).1 hu
    have hsame : ∀ i < s.laneCount, u.lane i = v.lane i := fun i hi => (hlane i hi).2
    refine ⟨(Shape.reinterpret_lanes hs ht hst hshape hv hvs).2 ⟨hwf, hut, hsame⟩, hsame, ?_⟩
    rw [Shape.convert_other_sign_iff ht hs hst.symm hne.symm hwf hut, hcount]
    refine ⟨hv, hvs, fun i hi => ?_⟩
    rw [hsame i hi]
    exact ⟨(hlane i hi).1, rfl⟩

/-- The greatest lane without a leading bit converts from either sign, and one more does not: as an unsigned lane it is
stored as the least signed one. -/
theorem convert_agrees_with_reinterpret_limits :
    let v : Packed := ⟨.uint16x8, .ints #v[32767, 0, 1, 2, 3, 4, 5, 6, 0, 0, 0, 0, 0, 0, 0, 0]⟩
    let w : Packed := ⟨.uint16x8, .ints #v[-32768, 0, 1, 2, 3, 4, 5, 6, 0, 0, 0, 0, 0, 0, 0, 0]⟩
    let u : Packed := ⟨.int16x8, v.slots⟩
    v.WellFormed ∧ w.WellFormed ∧ Shape.convert .truncating .int16x8 .uint16x8 v = .ok u ∧
      Shape.reinterpret .int16x8 .uint16x8 v = .ok u ∧ Shape.convert .truncating .uint16x8 .int16x8 u = .ok v ∧
      ¬ ∃ r, Shape.convert .truncating .int16x8 .uint16x8 w = .ok r := by
  intro v w u
  have hv : v.WellFormed := by decide
  have hw : w.WellFormed := by decide
  have hu : Shape.convert .truncating .int16x8 .uint16x8 v = .ok u := by decide +kernel
  obtain ⟨-, hagree⟩ :=
    convert_agrees_with_reinterpret .truncating (s := .uint16x8) (t := .int16x8) rfl rfl rfl (by decide) hv rfl
  obtain ⟨hbits, -, hback⟩ := hagree u hu
  obtain ⟨hiff, -⟩ :=
    convert_agrees_with_reinterpret .truncating (s := .uint16x8) (t := .int16x8) rfl rfl rfl (by decide) hw rfl
  refine ⟨hv, hw, hu, hbits, hback, ?_⟩
  rw [hiff]
  intro hpos
  exact absurd (hpos 0 (by decide)) (by decide)

end Vector128
