/-
The number that scripts see of a lane.

An integer lane is the number that its shape shows, a float lane is its own number or infinity, and a NaN is none
(`Shape.number?`). The value of a lane is a Number with the same place, since Numbers have room for every float and every
integer lane (`Shape.number?_laneValue`). So SameValueZero of vectors compares their numbers lane by lane
(`Packed.sameValueZero_iff`).
-/
import Vector128.Proofs.Binary.Value
import Vector128.Proofs.Packed.Lens

namespace Vector128

def Lane.isNaN : Lane → Bool
  | .float x => x.isNaN
  | _ => false

namespace Shape

/-- the place of a lane in the order of numbers and infinities; a NaN has none, and truth values have none -/
def number? (s : Shape) : Lane → Option Extended
  | .int n => some (.ofRat (s.visible n))
  | .float x => x.number?
  | .bool _ => none

variable {s : Shape} {l : Lane}

theorem number?_eq_none_iff (hs : s.isBool = false) (hl : s.accepts l = true) :
    s.number? l = none ↔ l.isNaN = true := by
  cases l with
  | int n => exact ⟨nofun, nofun⟩
  | float x => exact Binary.number?_eq_none_iff
  | bool b =>
    have hb : s.isBool = true := hl
    rw [hs] at hb
    cases hb

/-- **The value of a lane is the number of the lane.** -/
theorem number?_laneValue (hs : s.isBool = false) (hl : s.Stores l) :
    ∃ x, s.laneValue l = .number x ∧ x.number? = s.number? l := by
  cases l with
  | int n =>
    have hsmall := natAbs_visible_lt hl.accepts (Lane.int.inj hl.normal)
    exact ⟨_, rfl, Binary.denotes_iff.1 (Number.denotes_ofInt (hsmall.le.trans (by decide)))⟩
  | float x => exact ⟨_, rfl, Binary.number?_convert Format.single_embeds_double (by decide) (by decide) (by decide) x⟩
  | bool b =>
    have hb : s.isBool = true := hl.accepts
    rw [hs] at hb
    cases hb

end Shape

/-- **Vectors are the same under SameValueZero exactly if their lanes are the same numbers**, or NaN both. -/
theorem Packed.sameValueZero_iff {s : Shape} (hs : s.isBool = false) {v w : Packed} (hv : v.WellFormed)
    (hw : w.WellFormed) (hvs : v.shape = s) (hws : w.shape = s) :
    v.sameValueZero w = true ↔ ∀ i < s.laneCount, s.number? (v.lane i) = s.number? (w.lane i) := by
  subst hvs
  rw [sameValueZero_iff_sameLane hws]
  refine forall₂_congr fun i _ => ?_
  obtain ⟨x, hx, hxn⟩ := Shape.number?_laneValue hs (hv.stores i)
  obtain ⟨y, hy, hyn⟩ := Shape.number?_laneValue hs (hws ▸ hw.stores i)
  rw [hx, hy, ← hxn, ← hyn]
  exact Binary.sameValue_iff (by decide)

end Vector128
