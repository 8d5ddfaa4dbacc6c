/-
A conversion by value succeeds exactly if the target can have every lane.

What has to fit is the number that scripts see of a lane, without its fraction (`Shape.ShowsInteger`). So a float between
-1 and 0 converts to an unsigned lane, and `2 ^ 31` to no signed one, though the integer before it is no float. Infinities
and NaN show no integer, and a NaN is refused with a message of its own (`Shape.convertLane_cases`). An integer that fits
is what scripts see of the converted lane, and casting it again changes nothing (`Shape.cast_of_int`). In the other
direction no integer lane is beyond the floats, and each becomes the nearest one (`Shape.nearest_ofInt_visible`).

All of this is so for every cast of floats to integers that is lawful (`FloatCast.Lawful`).
-/
import Vector128.Proofs.Binary.Nearest
import Vector128.Proofs.Packed.Convert
import Vector128.Proofs.Packed.LaneNumber
import Vector128.Proofs.Packed.Truncation

namespace Vector128

open Outcome

namespace Shape

variable {cast : FloatCast} {s t : Shape} {v : Packed} {l : Lane} {low high n : Int}

/-- what scripts see of a lane is a number, and the integer is that number without its fraction -/
def ShowsInteger (s : Shape) (l : Lane) (n : Int) : Prop :=
  ∃ q : ℚ, s.number? l = some (.ofRat q) ∧ towardZero q = n

/-- the lane is no NaN, and without its fraction it is in the range -/
structure Fits (s : Shape) (low high : Int) (l : Lane) : Prop where
  number : l.isNaN = false
  integer : ∃ n, s.ShowsInteger l n ∧ low ≤ n ∧ n ≤ high

theorem showsInteger_int (s : Shape) (n : Int) : s.ShowsInteger (.int n) (s.visible n) :=
  ⟨_, rfl, towardZero_intCast _⟩

theorem ShowsInteger.unique {k : Int} (hn : s.ShowsInteger l n) (hk : s.ShowsInteger l k) : n = k := by
  obtain ⟨q, hq, rfl⟩ := hn
  obtain ⟨r, hr, rfl⟩ := hk
  rw [hq, Option.some.injEq, Extended.ofRat_inj] at hr
  rw [hr]

theorem ShowsInteger.isNaN (h : s.ShowsInteger l n) : l.isNaN = false := by
  obtain ⟨q, hq, -⟩ := h
  cases l with
  | int _ | bool _ => rfl
  | float x =>
    rw [Lane.isNaN, Bool.eq_false_iff, ne_eq, ← Binary.number?_eq_none_iff]
    exact fun h => absurd (h.symm.trans hq) nofun

theorem numberLane_of_range (h : t.range? = some (low, high)) (check : Int → Int → Except ConversionFault Int)
    (x : Single) : t.numberLane check x = (check low high).map fun n => .int (t.width.wrap n) := by
  rw [numberLane, h]

/-- what shows an integer converts as that integer -/
theorem convertLane_of_shows (hcast : cast.Lawful) (h : t.range? = some (low, high)) (hl : s.ShowsInteger l n) :
    t.convertLane cast s l =
      if low ≤ n ∧ n ≤ high then .ok (.int (t.width.wrap n)) else refuse (.conversion .outOfRange) := by
  have hcheck : ∀ check x, check low high = narrow n low high →
      (t.numberLane check x).mapError ConversionFault.forScripts =
        if low ≤ n ∧ n ≤ high then .ok (.int (t.width.wrap n)) else refuse (.conversion .outOfRange) := by
    intro check x hcheck
    rw [numberLane_of_range h, hcheck, narrow]
    split_ifs <;> rfl
  cases l with
  | int k =>
    obtain rfl := (s.showsInteger_int k).unique hl
    exact hcheck _ _ rfl
  | float x =>
    obtain ⟨q, hq, rfl⟩ := hl
    exact hcheck _ _ (narrowFloat_of_number? hcast h hq)
  | bool b =>
    obtain ⟨q, hq, -⟩ := hl
    cases hq

/-- what shows no integer is a NaN or an infinity -/
theorem convertLane_of_not_shows (hcast : cast.Lawful) (h : t.range? = some (low, high)) (hs : s.isBool = false)
    (hl : s.accepts l = true) (hnone : ∀ n, ¬ s.ShowsInteger l n) :
    t.convertLane cast s l = refuse (.conversion (if l.isNaN then .notANumber else .outOfRange)) := by
  cases l with
  | int k => exact absurd (s.showsInteger_int k) (hnone _)
  | float x =>
    rw [convertLane, numberLane_of_range h, Lane.isNaN]
    rcases float_cases x with hnan | hinf | ⟨q, hq⟩
    · rw [narrowFloat_of_isNaN hnan, hnan]
      rfl
    · rw [narrowFloat_of_isInfinite hcast h hinf, Binary.eq_infinity hinf, Binary.isNaN_infinity]
      rfl
    · exact absurd ⟨q, hq, rfl⟩ (hnone _)
  | bool b => exact absurd (hs.symm.trans hl) Bool.false_ne_true

/-- **A lane converts to an integer lane exactly if it fits.** It becomes the low bits of what it shows; any other lane is
refused, a NaN for being one. -/
theorem convertLane_cases (hcast : cast.Lawful) (h : t.range? = some (low, high)) (hs : s.isBool = false)
    (hl : s.accepts l = true) :
    (s.Fits low high l ∧ ∃ n, s.ShowsInteger l n ∧ low ≤ n ∧ n ≤ high ∧
      t.convertLane cast s l = .ok (.int (t.width.wrap n))) ∨
    (¬ s.Fits low high l ∧
      t.convertLane cast s l = refuse (.conversion (if l.isNaN then .notANumber else .outOfRange))) := by
  by_cases hshows : ∃ n, s.ShowsInteger l n
  · obtain ⟨n, hn⟩ := hshows
    rw [convertLane_of_shows hcast h hn, hn.isNaN]
    split_ifs with hmem hfalse hfalse
    · cases hfalse
    · exact Or.inl ⟨⟨hn.isNaN, n, hn, hmem⟩, n, hn, hmem.1, hmem.2, rfl⟩
    · cases hfalse
    · refine Or.inr ⟨fun hfits => hmem ?_, rfl⟩
      obtain ⟨k, hk, hkmem⟩ := hfits.integer
      rwa [hn.unique hk]
  · rw [not_exists] at hshows
    refine Or.inr ⟨fun hfits => ?_, convertLane_of_not_shows hcast h hs hl hshows⟩
    obtain ⟨n, hn, -⟩ := hfits.integer
    exact hshows n hn

theorem cast_of_int (ht : t.isInteger = true) {x : Scalar} (hx : x.int? = some n) :
    t.cast x = .int (t.width.wrap n) := by
  rw [cast_ints ht, Scalar.integerPart_toDouble hx]

/-- an integer lane is not beyond the floats, so it is rounded to the nearest one -/
theorem nearest_ofInt_visible (hs : s.isInteger = true) (hn : s.width.wrap n = n) :
    (Binary.ofInt (s.visible n) : Single).Nearest (s.visible n) := by
  -- the float that all of them are below
  have hfin : 1 * 2 ^ (32 + Format.single.scale) < Format.single.finiteUnits := by
    rw [pow_add, one_mul, ← Format.one_eq]
    exact Format.mul_one_lt (b := 33) (by decide) (by decide)
  obtain ⟨hcode, hunits⟩ := Format.unitsOf_codeOf (f := Format.single) (by decide) (by decide) hfin Nat.one_pos
  refine Binary.nearest_ofInt (by decide) hcode ?_
  rw [hunits, pow_add, one_mul, ← Format.one_eq]
  exact Nat.mul_le_mul_right _ (natAbs_visible_lt hs hn).le

/-! ## Vectors -/

/-- the operand of a conversion is a vector of the source shape, whose lanes convert by value -/
structure Convertible (t s : Shape) (v : Packed) : Prop where
  differs : s ≠ t
  lanes : s.laneCount = t.laneCount
  source : s.isBool = false
  target : t.isBool = false
  operand : v.shape = s

theorem Convertible.convertsFrom (h : t.Convertible s v) : t.convertsFrom s = true :=
  convertsFrom_iff.2 ⟨h.differs, h.lanes, h.source, h.target⟩

theorem convert_of_not_convertible (h : ¬ t.Convertible s v) :
    ∃ c, t.convert cast s v = refuse c ∧ c.kind = .typeError := by
  rw [convert]
  split_ifs with hfrom
  · obtain ⟨hne, hcount, hs, ht⟩ := convertsFrom_iff.1 hfrom
    have hvs : v.shape ≠ s := fun hvs => h ⟨hne, hcount, hs, ht, hvs⟩
    refine ⟨.vectorExpected, ?_, rfl⟩
    rw [Packed.expect, if_neg hvs]
    rfl
  · exact ⟨.conversionSource, rfl, rfl⟩

/-- What a conversion to an integer shape of the range `low … high` gives: a vector exactly if every lane fits, whose
lanes show what the source lanes show without their fractions, and are what any scalar with that value is cast to;
else the range error of the first lane that does not fit. -/
structure ConvertsToIntegers (cast : FloatCast) (t s : Shape) (low high : Int) (v : Packed) : Prop where
  succeeds_iff : (∃ u, t.convert cast s v = .ok u) ↔ ∀ i < t.laneCount, s.Fits low high (v.lane i)
  lanes : ∀ u, t.convert cast s v = .ok u → u.WellFormed ∧ u.shape = t ∧ ∀ i < t.laneCount,
    s.ShowsInteger (v.lane i) (t.visible (u.lane i).toInt) ∧
    ∀ x : Scalar, x.int? = some (t.visible (u.lane i).toInt) → t.cast x = u.lane i
  refused : ∀ fault, t.convert cast s v = .error fault → ∃ i < t.laneCount, ¬ s.Fits low high (v.lane i) ∧
    (∀ j < i, s.Fits low high (v.lane j)) ∧
    ∃ c, fault = .script (.conversion c) ∧ (Cause.conversion c).kind = .rangeError ∧
      c = if (v.lane i).isNaN then .notANumber else .outOfRange

theorem convertsToIntegers (hcast : cast.Lawful) (h : t.range? = some (low, high)) (hconv : t.Convertible s v)
    (hv : v.WellFormed) : t.ConvertsToIntegers cast s low high v := by
  have hfrom := hconv.convertsFrom
  have ht := isInteger_of_range h
  have hcases := fun i => convertLane_cases hcast h hconv.source (hconv.operand ▸ hv.accepts i)
  have hfits : ∀ i, (∃ m, t.convertLane cast s (v.lane i) = .ok m) → s.Fits low high (v.lane i) := by
    rintro i ⟨m, hm⟩
    rcases hcases i with ⟨hfits, -⟩ | ⟨-, herror⟩
    · exact hfits
    · cases hm.symm.trans herror
  have hrefused : ∀ fault, t.convert cast s v = .error fault → ∃ i < t.laneCount, ¬ s.Fits low high (v.lane i) ∧
      (∀ j < i, s.Fits low high (v.lane j)) ∧
      ∃ c, fault = .script (.conversion c) ∧ (Cause.conversion c).kind = .rangeError ∧
        c = if (v.lane i).isNaN then .notANumber else .outOfRange := by
    intro fault hfault
    obtain ⟨i, hi, hlane, hbefore⟩ := convert_error hfrom hconv.operand hfault
    rcases hcases i with ⟨-, n, -, -, -, hok⟩ | ⟨hnot, herror⟩
    · cases hlane.symm.trans hok
    · exact ⟨i, hi, hnot, fun j hj => hfits j (hbefore j hj), _, Except.error.inj (hlane.symm.trans herror), rfl, rfl⟩
  refine ⟨⟨?_, ?_⟩, ?_, hrefused⟩
  · rintro ⟨u, hu⟩ i hi
    obtain ⟨-, -, hlane⟩ := (convert_eq_ok_iff hfrom hconv.operand).1 hu
    exact hfits i ⟨_, hlane i hi⟩
  · intro hall
    cases hu : t.convert cast s v with
    | ok u => exact ⟨u, rfl⟩
    | error fault =>
      obtain ⟨i, hi, hnot, -⟩ := hrefused fault hu
      exact absurd (hall i hi) hnot
  · intro u hu
    obtain ⟨hwf, hut, hlane⟩ := (convert_eq_ok_iff hfrom hconv.operand).1 hu
    refine ⟨hwf, hut, fun i hi => ?_⟩
    rcases hcases i with ⟨-, n, hn, hlow, hhigh, hok⟩ | ⟨-, herror⟩
    · have hul : u.lane i = .int (t.width.wrap n) := Except.ok.inj ((hlane i hi).symm.trans hok)
      have hseen : t.visible (u.lane i).toInt = n := by
        rw [hul]
        exact visible_wrap_of_mem h ⟨hlow, hhigh⟩
      rw [hseen]
      exact ⟨hn, fun x hx => (cast_of_int ht hx).trans hul.symm⟩
    · cases (hlane i hi).symm.trans herror

/-- a conversion to floats always gives a vector, each of whose lanes is the nearest float -/
theorem convert_to_floats (cast : FloatCast) (ht : t.isFloat = true) (hconv : t.Convertible s v) (hv : v.WellFormed) :
    ∃ u, t.convert cast s v = .ok u ∧ u.WellFormed ∧ u.shape = t ∧ ∀ i < t.laneCount, ∃ x : Single, u.lane i = .float x ∧
      x.Nearest (s.visible (v.lane i).toInt) ∧ x.negative = decide (s.visible (v.lane i).toInt < 0) := by
  have hfrom := hconv.convertsFrom
  obtain ⟨hne, -, hs, -, rfl⟩ := hconv
  have hint : v.shape.isInteger = true := by
    rcases v.shape.kind_cases with hf | hi | hb
    · exact absurd ((eq_float32x4 hf).trans (eq_float32x4 ht).symm) hne
    · exact hi
    · exact absurd (hs.symm.trans hb) Bool.false_ne_true
  have hlane : ∀ i, t.convertLane cast v.shape (v.lane i) =
      .ok (.float (Binary.ofInt (v.shape.visible (v.lane i).toInt))) := by
    intro i
    obtain ⟨n, hn⟩ := hv.lane_int hint i
    rw [eq_float32x4 ht, hn]
    rfl
  obtain ⟨u, hu, hwf, hut, hulane⟩ := Packed.build_lanes (s := t) (fun i _ => hlane i) fun i _ => ⟨ht, rfl⟩
  refine ⟨u, (convert_eq_build hfrom rfl).trans hu, hwf, hut, fun i hi => ⟨_, hulane i hi, ?_, rfl⟩⟩
  exact nearest_ofInt_visible hint (hv.wrap_lane i)

end Shape

end Vector128
