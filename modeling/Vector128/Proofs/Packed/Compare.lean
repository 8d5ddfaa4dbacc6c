/-
Comparisons are the order of numbers.

A comparison looks at the numbers that scripts see of two lanes (`Comparison.Holds`): integers are compared as integers,
floats by rank, and both orders are the one of numbers and infinities (`Comparison.onLanes_iff`). Where a lane is a NaN
there is no number to compare, and only inequality holds. What comparisons have to do with each other is what the
relations of a linear order have to do with each other, lane by lane.
-/
import Vector128.Proofs.Packed.Blend
import Vector128.Proofs.Packed.LaneNumber

namespace Vector128

open Outcome

namespace Comparison

section Relation

variable {α β : Type} [LinearOrder α] [LinearOrder β]

/-- the relation of an order that a comparison tests -/
def relation : Comparison → α → α → Prop
  | less, a, b => a < b
  | lessEq, a, b => a ≤ b
  | greater, a, b => a > b
  | greaterEq, a, b => a ≥ b
  | equal, a, b => a = b
  | notEqual, a, b => a ≠ b

theorem relation_congr {a b : α} {c d : β} (hlt : a < b ↔ c < d) (hgt : b < a ↔ d < c) (op : Comparison) :
    op.relation a b ↔ op.relation c d := by
  cases op with
  | less => exact hlt
  | lessEq => exact not_lt.symm.trans ((not_congr hgt).trans not_lt)
  | greater => exact hgt
  | greaterEq => exact not_lt.symm.trans ((not_congr hlt).trans not_lt)
  | equal => rw [relation, relation, eq_iff_le_not_lt, eq_iff_le_not_lt, ← not_lt, ← not_lt, hlt, hgt]
  | notEqual => rw [relation, relation, ← lt_or_lt_iff_ne, ← lt_or_lt_iff_ne, hlt, hgt]

end Relation

/-- A comparison of two places in the order of numbers and infinities. Where one is missing, only inequality holds. -/
def Holds (op : Comparison) : Option Extended → Option Extended → Prop
  | some a, some b => op.relation a b
  | _, _ => op = .notEqual

theorem holds_notEqual_iff (a b : Option Extended) : notEqual.Holds a b ↔ ¬ equal.Holds a b := by
  cases a <;> cases b <;> simp [Holds, relation]

theorem holds_lessEq_iff (a b : Option Extended) : lessEq.Holds a b ↔ less.Holds a b ∨ equal.Holds a b := by
  cases a <;> cases b <;> simp [Holds, relation, le_iff_lt_or_eq]

/-- equal places, or none at all -/
theorem eq_iff_holds_equal (a b : Option Extended) : a = b ↔ equal.Holds a b ∨ a = none ∧ b = none := by
  cases a <;> cases b <;> simp [Holds, relation]

/-! ## Lanes -/

theorem onInts_iff (op : Comparison) (n m : Int) : op.onInts n m = true ↔ op.relation n m := by
  cases op <;> exact decide_eq_true_iff

/-- **Floats compare as the numbers that they are.** -/
theorem onFloats_iff (op : Comparison) (x y : Single) : op.onFloats x y = true ↔ op.Holds x.number? y.number? := by
  cases hunordered : Binary.unordered x y with
  | true =>
    have hmissing : x.number? = none ∨ y.number? = none := by
      rw [Binary.number?_eq_none_iff, Binary.number?_eq_none_iff, ← Bool.or_eq_true]
      exact hunordered
    have hholds : op.Holds x.number? y.number? ↔ op = .notEqual := by
      rcases hmissing with h | h
      · rw [h]
        exact Iff.rfl
      · rw [h]
        cases x.number? <;> exact Iff.rfl
    have hswap : Binary.unordered y x = true := (Bool.or_comm _ _).trans hunordered
    rw [hholds]
    cases op <;> simp [onFloats, Binary.less, Binary.lessEq, Binary.equal, hunordered, hswap]
  | false =>
    obtain ⟨hx, hy⟩ := Bool.or_eq_false_iff.1 hunordered
    have hswap : Binary.unordered y x = false := (Bool.or_comm _ _).trans hunordered
    have hrank : op.onFloats x y = true ↔ op.relation x.rank y.rank := by
      cases op <;> simp [onFloats, relation, Binary.less, Binary.lessEq, Binary.equal, hunordered, hswap]
    rw [hrank, Binary.number?_of_not_isNaN hx, Binary.number?_of_not_isNaN hy]
    exact relation_congr (Binary.extended_lt_iff (by decide) hx hy).symm
      (Binary.extended_lt_iff (by decide) hy hx).symm op

/-- a comparison of two lanes of one shape -/
def onLanes (op : Comparison) (s : Shape) : Lane → Lane → Bool
  | .int n, .int m => op.onInts (s.visible n) (s.visible m)
  | .float x, .float y => op.onFloats x y
  | _, _ => false

/-- **Lanes compare as the numbers that scripts see.** -/
theorem onLanes_iff {s : Shape} (hs : s.isBool = false) {l m : Lane} (hl : s.accepts l = true) (hm : s.accepts m = true)
    (op : Comparison) : op.onLanes s l m = true ↔ op.Holds (s.number? l) (s.number? m) := by
  have hkind : s.isInteger = true → s.isFloat = true → False := by
    intro hint hfloat
    rw [Shape.eq_float32x4 hfloat] at hint
    cases hint
  cases l with
  | int n =>
    cases m with
    | int k =>
      rw [onLanes, onInts_iff]
      refine relation_congr ?_ ?_ op
      · rw [Extended.ofRat_lt_iff, Int.cast_lt]
      · rw [Extended.ofRat_lt_iff, Int.cast_lt]
    | float x => exact (hkind hl hm).elim
    | bool b => exact absurd (hs.symm.trans hm) Bool.false_ne_true
  | float x =>
    cases m with
    | int k => exact (hkind hm hl).elim
    | float y => exact op.onFloats_iff x y
    | bool b => exact absurd (hs.symm.trans hm) Bool.false_ne_true
  | bool b => exact absurd (hs.symm.trans hl) Bool.false_ne_true

end Comparison

namespace Shape

variable {s : Shape} {v w u : Packed}

theorem compare_lanes (hs : s.isBool = false) (hv : v.WellFormed) (hw : w.WellFormed) (hvs : v.shape = s)
    (hws : w.shape = s) (op : Comparison) : ∃ u, s.compare op v w = .ok u ∧ u.WellFormed ∧ u.shape = s.boolShape ∧
      ∀ i < s.laneCount, u.lane i = .bool (op.onLanes s (v.lane i) (w.lane i)) := by
  subst hvs
  have hfill : ∀ f : Nat → Bool, ∀ i < v.shape.laneCount,
      (Packed.mk v.shape.boolShape (.bools (Slots.fill v.shape.laneCount false f))).lane i = .bool (f i) := by
    intro f i hi
    simp only [Packed.lane, Slots.lane, Slots.getD_fill _ _ _ _ v.shape.laneCount_le, if_pos hi]
  obtain ⟨u, hu, hlane⟩ : ∃ u, v.zipTests w op.onInts op.onFloats = .ok u ∧
      ∀ i < v.shape.laneCount, u.lane i = .bool (op.onLanes v.shape (v.lane i) (w.lane i)) := by
    rw [Packed.zipTests]
    rcases v.shape.kind_cases with hf | hi | hb
    · obtain ⟨a, ha⟩ := hv.floats hf
      obtain ⟨b, hb⟩ := hw.floats (hws ▸ hf)
      rw [ha, hb]
      refine ⟨_, rfl, fun i hi => ?_⟩
      rw [hfill _ i hi, Packed.lane, Packed.lane, ha, hb]
      rfl
    · obtain ⟨a, ha⟩ := hv.ints hi
      obtain ⟨b, hb⟩ := hw.ints (hws ▸ hi)
      rw [ha, hb]
      refine ⟨_, rfl, fun i hi => ?_⟩
      rw [hfill _ i hi, Packed.lane, Packed.lane, ha, hb]
      rfl
    · exact absurd (hs.symm.trans hb) Bool.false_ne_true
  have hcompare : v.shape.compare op v w = .ok u :=
    bind_eq_ok.2 ⟨v, Packed.expect_eq_ok.2 ⟨rfl, rfl⟩, bind_eq_ok.2 ⟨w, Packed.expect_eq_ok.2 ⟨hws, rfl⟩, hu⟩⟩
  obtain ⟨hwf, hus⟩ := compare_makes v.shape op v w u hcompare
  exact ⟨u, hcompare, hwf, hus, hlane⟩

/-- what a comparison answers is known by its lanes -/
theorem compare_eq_ok (hs : s.isBool = false) (hv : v.WellFormed) (hw : w.WellFormed) (hvs : v.shape = s)
    (hws : w.shape = s) {op : Comparison} (hu : u.WellFormed) (hus : u.shape = s.boolShape)
    (h : ∀ i < s.laneCount, (u.lane i).toBool = op.onLanes s (v.lane i) (w.lane i)) : s.compare op v w = .ok u := by
  obtain ⟨r, hr, hrwf, hrs, hlane⟩ := compare_lanes hs hv hw hvs hws op
  obtain rfl : r = u := by
    apply hrwf.ext hu (hrs.trans hus.symm)
    intro i hi
    rw [hrs, laneCount_boolShape] at hi
    rw [hlane i hi, hu.lane_bool (hus ▸ isBool_boolShape s) i, h i hi]
  exact hr

/-- exchanged operands give the other comparison, if they do so on lanes -/
theorem compare_swap (hs : s.isBool = false) (hv : v.WellFormed) (hw : w.WellFormed) (hvs : v.shape = s)
    (hws : w.shape = s) {op op' : Comparison} (h : ∀ l m, op.onLanes s l m = op'.onLanes s m l) :
    s.compare op v w = s.compare op' w v := by
  obtain ⟨u, hu, hwf, hus, hlane⟩ := compare_lanes hs hw hv hws hvs op'
  rw [hu]
  apply compare_eq_ok hs hv hw hvs hws hwf hus
  intro i hi
  rw [hlane i hi, h]
  rfl

theorem binary_bools (hs : s.isBool = true) (hv : v.WellFormed) (hw : w.WellFormed) (hvs : v.shape = s)
    (hws : w.shape = s) (op : BinaryOp) {f : Bool → Bool → Bool} (hf : op.onBools = some f) :
    ∃ u, s.binary op v w = .ok u ∧ u.WellFormed ∧ u.shape = s ∧
      ∀ i < s.laneCount, u.lane i = .bool (f (v.lane i).toBool (w.lane i).toBool) := by
  subst hvs
  obtain ⟨a, ha⟩ := hv.bools hs
  obtain ⟨b, hb⟩ := hw.bools (hws ▸ hs)
  obtain ⟨u, hu⟩ : ∃ u, v.zipBools w f = .ok u := by
    rw [Packed.zipBools, ha, hb]
    exact ⟨_, rfl⟩
  refine ⟨u, ?_, Packed.zipBools_spec hws hv hu⟩
  apply bind_eq_ok.2
  refine ⟨v, Packed.expect_eq_ok.2 ⟨rfl, rfl⟩, bind_eq_ok.2 ⟨w, Packed.expect_eq_ok.2 ⟨hws, rfl⟩, ?_⟩⟩
  have hk : v.shape.kind = .bool := beq_iff_eq.1 hs
  rw [hk, hf]
  exact hu

end Shape

/-- how many of the relations less, equal and greater hold of two places: one if neither is missing -/
theorem Comparison.count_holds (a b : Option Extended) {l e g : Bool} (hl : l = true ↔ less.Holds a b)
    (he : e = true ↔ equal.Holds a b) (hg : g = true ↔ greater.Holds a b) :
    l.toNat + e.toNat + g.toNat = if a = none ∨ b = none then 0 else 1 := by
  cases a with
  | none => cases b <;> simp_all [Holds]
  | some a =>
    cases b with
    | none => simp_all [Holds]
    | some b =>
      simp only [Holds, relation] at hl he hg
      rcases lt_trichotomy a b with h | h | h
      · simp_all [h.ne, h.not_gt]
      · simp_all
      · simp_all [h.ne', h.not_gt]

/-- **Comparisons realise the order of numbers.** On vectors of a shape with numbers in its lanes every comparison
answers, and a lane of the answer is true exactly if the relation holds between the numbers that scripts see, or if it is
inequality and one of the two lanes is a NaN. So the greater comparisons are the less ones with their operands exchanged,
inequality is the negation of equality, and less or equal is either of the two. Of less, equal and greater exactly one is
true in each lane without a NaN, and none in a lane with one. Vectors are the same under SameValueZero exactly if each
lane is equal or NaN in both. -/
theorem comparisons_order {s : Shape} (hs : s.isBool = false) {v w : Packed} (hv : v.WellFormed) (hw : w.WellFormed)
    (hvs : v.shape = s) (hws : w.shape = s) :
    (∀ op : Comparison, ∃ u, s.compare op v w = .ok u ∧ u.WellFormed ∧ u.shape = s.boolShape ∧
      ∀ i < s.laneCount, ∃ b, u.lane i = .bool b ∧ (b = true ↔ op.Holds (s.number? (v.lane i)) (s.number? (w.lane i)))) ∧
    s.compare .greater v w = s.compare .less w v ∧ s.compare .greaterEq v w = s.compare .lessEq w v ∧
    ∃ less equal greater, s.compare .less v w = .ok less ∧ s.compare .equal v w = .ok equal ∧
      s.compare .greater v w = .ok greater ∧
      s.boolShape.unary .not equal = s.compare .notEqual v w ∧
      s.boolShape.binary .or less equal = s.compare .lessEq v w ∧
      (∀ i < s.laneCount, (less.lane i).toBool.toNat + (equal.lane i).toBool.toNat + (greater.lane i).toBool.toNat =
        if (v.lane i).isNaN || (w.lane i).isNaN then 0 else 1) ∧
      (v.sameValueZero w = true ↔
        ∀ i < s.laneCount, equal.lane i = .bool true ∨ (v.lane i).isNaN = true ∧ (w.lane i).isNaN = true) := by
  have hva : ∀ i, s.accepts (v.lane i) = true := fun i => hvs ▸ hv.accepts i
  have hwa : ∀ i, s.accepts (w.lane i) = true := fun i => hws ▸ hw.accepts i
  have hiff : ∀ op i, Comparison.onLanes op s (v.lane i) (w.lane i) = true ↔
      op.Holds (s.number? (v.lane i)) (s.number? (w.lane i)) :=
    fun op i => Comparison.onLanes_iff hs (hva i) (hwa i) op
  have hcount := Shape.laneCount_boolShape s
  have hbool := Shape.isBool_boolShape s
  obtain ⟨l, hl, hlwf, hls, hlless⟩ := Shape.compare_lanes hs hv hw hvs hws .less
  obtain ⟨e, he, hewf, hes, hequal⟩ := Shape.compare_lanes hs hv hw hvs hws .equal
  obtain ⟨g, hg, -, -, hgreater⟩ := Shape.compare_lanes hs hv hw hvs hws .greater
  refine ⟨?_, ?_, ?_, l, e, g, hl, he, hg, ?_, ?_, ?_, ?_⟩
  · intro op
    obtain ⟨u, hu, hwf, hus, hlane⟩ := Shape.compare_lanes hs hv hw hvs hws op
    exact ⟨u, hu, hwf, hus, fun i hi => ⟨_, hlane i hi, hiff op i⟩⟩
  · apply Shape.compare_swap hs hv hw hvs hws
    intro l m
    cases l <;> cases m <;> rfl
  · apply Shape.compare_swap hs hv hw hvs hws
    intro l m
    cases l <;> cases m <;> rfl
  · obtain ⟨u, hu, hwf, hus, hnot⟩ := Shape.not_bools hbool hewf hes
    rw [hu]
    refine (Shape.compare_eq_ok hs hv hw hvs hws hwf hus fun i hi => ?_).symm
    rw [hnot i (hcount ▸ hi), hequal i hi, Bool.eq_iff_iff, hiff, Comparison.holds_notEqual_iff, ← hiff]
    rw [Lane.toBool, Bool.not_eq_true', Bool.not_eq_true]
  · obtain ⟨u, hu, hwf, hus, hor⟩ := Shape.binary_bools hbool hlwf hewf hls hes .or rfl
    rw [hu]
    refine (Shape.compare_eq_ok hs hv hw hvs hws hwf hus fun i hi => ?_).symm
    rw [hor i (hcount ▸ hi), hlless i hi, hequal i hi, Bool.eq_iff_iff, hiff, Comparison.holds_lessEq_iff, ← hiff, ← hiff]
    exact Bool.or_eq_true_iff
  · intro i hi
    rw [hlless i hi, hequal i hi, hgreater i hi]
    refine (Comparison.count_holds _ _ (hiff .less i) (hiff .equal i) (hiff .greater i)).trans ?_
    simp only [Shape.number?_eq_none_iff hs (hva i), Shape.number?_eq_none_iff hs (hwa i), Bool.or_eq_true]
  · rw [Packed.sameValueZero_iff hs hv hw hvs hws]
    refine forall₂_congr fun i hi => ?_
    rw [hequal i hi, Lane.bool.injEq, hiff, ← Shape.number?_eq_none_iff hs (hva i),
      ← Shape.number?_eq_none_iff hs (hwa i)]
    exact Comparison.eq_iff_holds_equal _ _

/-- Two NaNs are the same and still not equal, the zeros of both signs are equal, and infinity is greater than the
greatest finite float. -/
theorem comparisons_order_floats :
    let v : Packed := ⟨.float32x4, .floats #v[Binary.nan, Binary.neg Binary.zero, Binary.infinity false, Binary.ofInt 1]⟩
    let w : Packed := ⟨.float32x4, .floats #v[Binary.nan, Binary.zero, Binary.ofBits 0x7F7FFFFF, Binary.ofInt 2]⟩
    let less : Packed := ⟨.bool32x4, .bools (Slots.fill 4 false fun i => i == 3)⟩
    let equal : Packed := ⟨.bool32x4, .bools (Slots.fill 4 false fun i => i == 1)⟩
    let greater : Packed := ⟨.bool32x4, .bools (Slots.fill 4 false fun i => i == 2)⟩
    v.WellFormed ∧ w.WellFormed ∧ Shape.compare .float32x4 .less v w = .ok less ∧
      Shape.compare .float32x4 .equal v w = .ok equal ∧ Shape.compare .float32x4 .greater v w = .ok greater ∧
      Shape.compare .float32x4 .less w v = .ok greater ∧
      Shape.binary .bool32x4 .or less equal = Shape.compare .float32x4 .lessEq v w ∧
      Comparison.Holds .greater (Shape.number? .float32x4 (v.lane 2)) (Shape.number? .float32x4 (w.lane 2)) ∧
      v.sameValueZero v = true ∧ v.sameValueZero w = false := by
  intro v w less equal greater
  have hv : v.WellFormed := by decide
  have hw : w.WellFormed := by decide
  have hless : Shape.compare .float32x4 .less v w = .ok less := by decide +kernel
  have hequal : Shape.compare .float32x4 .equal v w = .ok equal := by decide +kernel
  have hgreater : Shape.compare .float32x4 .greater v w = .ok greater := by decide +kernel
  have hself : Shape.compare .float32x4 .equal v v = .ok ⟨.bool32x4, .bools (Slots.fill 4 false fun i => i != 0)⟩ := by
    decide +kernel
  obtain ⟨hall, hswap, -, l, e, g, hl, he, hg, -, hor, -, hsame⟩ := comparisons_order (s := .float32x4) rfl hv hw rfl rfl
  obtain rfl : l = less := Except.ok.inj (hl.symm.trans hless)
  obtain rfl : e = equal := Except.ok.inj (he.symm.trans hequal)
  obtain ⟨-, -, -, -, e', -, -, he', -, -, -, -, hrefl⟩ := comparisons_order (s := .float32x4) rfl hv hv rfl rfl
  obtain rfl := Except.ok.inj (he'.symm.trans hself)
  obtain ⟨u, hu, -, -, hlane⟩ := hall .greater
  obtain rfl : u = greater := Except.ok.inj (hu.symm.trans hgreater)
  obtain ⟨b, hb, hholds⟩ := hlane 2 (by decide)
  refine ⟨hv, hw, hless, hequal, hgreater, hswap.symm.trans hgreater, hor, hholds.1 ?_, hrefl.2 ?_, ?_⟩
  · exact (Lane.bool.inj hb).symm
  · decide +kernel
  · rw [Bool.eq_false_iff, ne_eq, hsame]
    intro h
    exact absurd (h 2 (by decide)) (by decide +kernel)

end Vector128
