/-
SameValueZero is an equivalence of values.

Of a value SameValueZero looks at so much only (`Value.identity`): of a number at its place among the numbers and
infinities, of a vector at what scripts see of its lanes, of a typed array at which elements of which buffer it shows, in
the store as it is. Values are the same exactly if as much of them is equal (`Value.sameValueZero_iff`), whatever kinds of
values they are and whatever shapes vectors have. So the relation is an equivalence since equality is one.

Vectors of one shape are the same exactly if their lanes are bit by bit, save that all NaNs and the two zeros are taken
for one each (`Lane.Identified`).
-/
import Vector128.Proofs.Packed.LaneNumber

namespace Vector128

namespace Binary

variable {f : Format} {x y : Binary f}

theorem isZero_of_rank_eq (hrank : x.rank = y.rank) (hsign : x.negative ≠ y.negative) : x.isZero = true := by
  rw [isZero, decide_eq_true_iff]
  rw [rank, rank] at hrank
  split_ifs at hrank with hx hy hy
  · exact absurd (hx.trans hy.symm) hsign
  · omega
  · omega
  · exact absurd ((Bool.eq_false_iff.2 hx).trans (Bool.eq_false_iff.2 hy).symm) hsign

theorem rank_of_isZero (hx : x.isZero = true) : x.rank = 0 := by
  rw [isZero, decide_eq_true_iff] at hx
  rw [rank, hx]
  split_ifs <;> rfl

theorem isNaN_of_isZero (hx : x.isZero = true) : x.isNaN = false := by
  rw [isZero, decide_eq_true_iff] at hx
  rw [isNaN, hx]
  exact decide_eq_false (Nat.not_lt_zero _)

/-- what `sameValue` takes for one: all NaNs, and the two zeros -/
theorem sameValue_iff_identified :
    x.sameValue y = true ↔ x = y ∨ x.isNaN = true ∧ y.isNaN = true ∨ x.isZero = true ∧ y.isZero = true := by
  constructor
  · intro h
    rw [sameValue, Bool.or_eq_true, Bool.and_eq_true, equal, Bool.and_eq_true, decide_eq_true_iff] at h
    rcases h with hnan | ⟨-, hrank⟩
    · exact Or.inr (Or.inl hnan)
    · by_cases hsign : x.negative = y.negative
      · exact Or.inl (eq_of_rank_eq hrank hsign)
      · exact Or.inr (Or.inr ⟨isZero_of_rank_eq hrank hsign, isZero_of_rank_eq hrank.symm (Ne.symm hsign)⟩)
  · rintro (rfl | ⟨hx, hy⟩ | ⟨hx, hy⟩)
    · exact x.sameValue_refl
    · rw [sameValue, hx, hy]
      rfl
    · rw [sameValue, equal, unordered, isNaN_of_isZero hx, isNaN_of_isZero hy, rank_of_isZero hx, rank_of_isZero hy]
      rfl

end Binary

/-! ## What is looked at -/

/-- what SameValueZero looks at of a number or a truth value -/
inductive Seen
  | truth (b : Bool)
  /-- the place of a number; NaN has none -/
  | number (place : Option Extended)

/-- what SameValueZero looks at of a value -/
inductive Identity
  | undefined
  | null
  | primitive (seen : Seen)
  | string (text : String)
  | lanes (row : List Seen)
  /-- elements of a kind in a buffer: the byte of the first one, and how many there are -/
  | elements (buffer : Nat) (kind : ElementKind) (start count : Nat)
  | object (id : Nat)

/-- what scripts see of a lane -/
def Shape.seen (s : Shape) : Lane → Seen
  | .int n => .number (Binary.ofInt (s.visible n) : Double).number?
  | .float x => .number (x.convert : Double).number?
  | .bool b => .truth b

def Value.identity (st : Store) : Value → Identity
  | undefined => .undefined
  | null => .null
  | boolean b => .primitive (.truth b)
  | number x => .primitive (.number x.number?)
  | string text => .string text
  | vector v => .lanes (v.lanes.map v.shape.seen)
  | array v => .elements v.buffer v.kind (v.byteOffset st) (v.count st)
  | object id => .object id

namespace Shape

variable {s t : Shape} {l m : Lane}

theorem sameLane_iff : (s.laneValue l).sameLane (t.laneValue m) = true ↔ s.seen l = t.seen m := by
  have hnumber : ∀ x y : Double, x.sameValue y = true ↔ Seen.number x.number? = Seen.number y.number? := fun x y =>
    (Binary.sameValue_iff (by decide)).trans (Seen.number.injEq _ _).symm.to_iff
  cases l with
  | int n =>
    cases m with
    | bool b => exact iff_of_false Bool.false_ne_true nofun
    | int _ | float _ => exact hnumber _ _
  | float x =>
    cases m with
    | bool b => exact iff_of_false Bool.false_ne_true nofun
    | int _ | float _ => exact hnumber _ _
  | bool b =>
    cases m with
    | bool c => exact beq_iff_eq.trans (Seen.truth.injEq _ _).symm.to_iff
    | int _ | float _ => exact iff_of_false Bool.false_ne_true nofun

/-- the values of lanes are primitive, so comparing them as values is comparing them as lanes -/
theorem sameValueZero_laneValue (st : Store) (s t : Shape) (l m : Lane) :
    Value.sameValueZero st (s.laneValue l) (t.laneValue m) = (s.laneValue l).sameLane (t.laneValue m) := by
  cases l <;> cases m <;> rfl

end Shape

namespace Packed

variable {v w : Packed}

theorem sameValueZero_iff_seen : v.sameValueZero w = true ↔ v.lanes.map v.shape.seen = w.lanes.map w.shape.seen := by
  rw [sameValueZero_iff_forall, lanes, lanes, List.map_map, List.map_map]
  constructor
  · rintro ⟨hcount, hlanes⟩
    rw [← hcount, List.map_inj_left]
    exact fun i hi => Shape.sameLane_iff.1 (hlanes i (List.mem_range.1 hi))
  · intro h
    have hcount : v.shape.laneCount = w.shape.laneCount := by simpa using congrArg List.length h
    rw [← hcount, List.map_inj_left] at h
    exact ⟨hcount, fun i hi => Shape.sameLane_iff.2 (h i (List.mem_range.2 hi))⟩

end Packed

namespace Value

/-- **Values are the same exactly if SameValueZero sees the same of them.** -/
theorem sameValueZero_iff (st : Store) (a b : Value) :
    sameValueZero st a b = true ↔ a.identity st = b.identity st := by
  cases a <;> cases b
  case undefined.undefined | null.null => exact iff_of_true rfl rfl
  case boolean.boolean b c => exact beq_iff_eq.trans (by rw [identity, identity, Identity.primitive.injEq, Seen.truth.injEq])
  case number.number x y =>
    exact (Binary.sameValue_iff (by decide)).trans
      (by rw [identity, identity, Identity.primitive.injEq, Seen.number.injEq])
  case string.string s t => exact beq_iff_eq.trans (by rw [identity, identity, Identity.string.injEq])
  case vector.vector v w => exact Packed.sameValueZero_iff_seen.trans (by rw [identity, identity, Identity.lanes.injEq])
  case array.array v w =>
    rw [sameValueZero, View.same, identity, identity, Identity.elements.injEq]
    simp only [Bool.and_eq_true, beq_iff_eq, and_assoc]
  case object.object i j => exact beq_iff_eq.trans (by rw [identity, identity, Identity.object.injEq])
  all_goals exact iff_of_false Bool.false_ne_true nofun

end Value

/-! ## Vectors of one shape -/

/-- The same lane bit by bit, where all NaNs are one and the two zeros are one. -/
def Lane.Identified : Lane → Lane → Prop
  | .float x, .float y => x = y ∨ x.isNaN = true ∧ y.isNaN = true ∨ x.isZero = true ∧ y.isZero = true
  | l, m => l = m

namespace Shape

variable {s : Shape} {l m : Lane}

theorem not_stores_int_float {n : Int} {x : Single} (hn : s.Stores (.int n)) (hx : s.Stores (.float x)) : False := by
  have hint : s.isInteger = true := hn.accepts
  rw [eq_float32x4 hx.accepts] at hint
  cases hint

theorem seen_int (h : s.Stores (.int n)) : s.seen (.int n) = .number (some (.ofRat (s.visible n))) := by
  have hsmall := natAbs_visible_lt h.accepts (Lane.int.inj h.normal)
  rw [seen, Binary.denotes_iff.1 (Number.denotes_ofInt (hsmall.le.trans (by decide)))]

theorem seen_float (s : Shape) (x : Single) : s.seen (.float x) = .number x.number? := by
  rw [seen, Binary.number?_convert Format.single_embeds_double (by decide) (by decide) (by decide)]

/-- **Scripts see lanes of one shape apart, but for NaNs and zeros.** -/
theorem seen_eq_iff (hl : s.Stores l) (hm : s.Stores m) : s.seen l = s.seen m ↔ l.Identified m := by
  cases l with
  | int n =>
    cases m with
    | int k =>
      rw [seen_int hl, seen_int hm, Seen.number.injEq, Option.some.injEq, Extended.ofRat_inj, Int.cast_inj]
      refine ⟨fun h => congrArg Lane.int ?_, fun h => congrArg s.visible (Lane.int.inj h)⟩
      exact eq_of_visible_eq (Lane.int.inj hl.normal) (Lane.int.inj hm.normal) h
    | float y => exact (not_stores_int_float hl hm).elim
    | bool c => exact iff_of_false nofun nofun
  | float x =>
    cases m with
    | int k => exact (not_stores_int_float hm hl).elim
    | float y =>
      rw [seen_float, seen_float, Seen.number.injEq, ← Binary.sameValue_iff (by decide)]
      exact Binary.sameValue_iff_identified
    | bool c => exact iff_of_false nofun nofun
  | bool b =>
    cases m with
    | int _ | float _ => exact iff_of_false nofun nofun
    | bool c => exact ⟨fun h => congrArg Lane.bool (Seen.truth.inj h), fun h => congrArg Seen.truth (Lane.bool.inj h)⟩

/-- truth values are seen of boolean lanes, and of no others -/
theorem isBool_iff_seen (hl : s.accepts l = true) : s.isBool = true ↔ ∃ b, s.seen l = .truth b := by
  cases l with
  | int n => exact iff_of_false (Bool.eq_false_iff.1 (isBool_of_isInteger hl)) nofun
  | float x =>
    rw [eq_float32x4 hl]
    exact iff_of_false nofun nofun
  | bool b => exact iff_of_true hl ⟨b, rfl⟩

end Shape

namespace Packed

variable {v w : Packed}

theorem sameValueZero_iff_identified (hv : v.WellFormed) (hw : w.WellFormed) (hs : v.shape = w.shape) :
    v.sameValueZero w = true ↔ ∀ i < v.shape.laneCount, (v.lane i).Identified (w.lane i) := by
  rw [sameValueZero_iff_sameLane hs.symm]
  exact forall₂_congr fun i _ => Shape.sameLane_iff.trans (Shape.seen_eq_iff (hv.stores i) (hs ▸ hw.stores i))

/-- a truth value is no number -/
theorem sameValueZero_bools (hv : v.WellFormed) (hw : w.WellFormed) (hs : v.shape.isBool ≠ w.shape.isBool) :
    v.sameValueZero w = false := by
  rw [Bool.eq_false_iff, ne_eq, sameValueZero_iff_forall]
  rintro ⟨-, hlanes⟩
  have hfirst := Shape.sameLane_iff.1 (hlanes 0 v.shape.laneCount_pos)
  refine hs (Bool.eq_iff_iff.2 ?_)
  rw [Shape.isBool_iff_seen (hv.accepts 0), Shape.isBool_iff_seen (hw.accepts 0), hfirst]

end Packed

/-- **SameValueZero is an equivalence** of all values, in every store. Vectors are the same exactly if they have as many
lanes, and what scripts see of those is the same in pairs, whatever the two shapes are. Vectors of one shape are the same
exactly if their lanes are bit by bit, save for NaNs and for the signs of zeros; a vector of truth values is never the
same as one of numbers. -/
theorem sameValueZero_equivalence (st : Store) :
    (∀ a, Value.sameValueZero st a a = true) ∧
    (∀ a b, Value.sameValueZero st a b = Value.sameValueZero st b a) ∧
    (∀ a b c, Value.sameValueZero st a b = true → Value.sameValueZero st b c = true →
      Value.sameValueZero st a c = true) ∧
    ∀ v w : Packed, v.WellFormed → w.WellFormed →
      (Value.sameValueZero st (.vector v) (.vector w) = true ↔ v.shape.laneCount = w.shape.laneCount ∧
        ∀ i < v.shape.laneCount, Value.sameValueZero st (v.shape.laneValue (v.lane i)) (w.shape.laneValue (w.lane i)) =
          true) ∧
      (v.shape = w.shape → (Value.sameValueZero st (.vector v) (.vector w) = true ↔
        ∀ i < v.shape.laneCount, (v.lane i).Identified (w.lane i))) ∧
      (v.shape.isBool ≠ w.shape.isBool → Value.sameValueZero st (.vector v) (.vector w) = false) := by
  refine ⟨fun a => ?_, fun a b => ?_, fun a b c hab hbc => ?_, fun v w hv hw => ⟨?_, ?_, ?_⟩⟩
  · exact (Value.sameValueZero_iff st a a).2 rfl
  · rw [Bool.eq_iff_iff, Value.sameValueZero_iff, Value.sameValueZero_iff, eq_comm]
  · rw [Value.sameValueZero_iff] at hab hbc ⊢
    exact hab.trans hbc
  · simp only [Shape.sameValueZero_laneValue]
    exact Packed.sameValueZero_iff_forall
  · exact Packed.sameValueZero_iff_identified hv hw
  · exact Packed.sameValueZero_bools hv hw

/-- Vectors of three shapes that show 1, 2, 3 and 4 are the same; so are vectors with NaNs and zeros of either sign, which
are none of those, and a vector of truth values is not the same as the one of their numbers. -/
theorem sameValueZero_equivalence_mixed :
    let signed : Packed := ⟨.int32x4, .ints #v[1, 2, 3, 4, 0, 0, 0, 0, 0, 0, 0, 0, 0, 0, 0, 0]⟩
    let float : Packed := ⟨.float32x4, .floats #v[.ofBits 0x3F800000, .ofBits 0x40000000, .ofBits 0x40400000,
      .ofBits 0x40800000]⟩
    let unsigned : Packed := ⟨.uint32x4, .ints #v[1, 2, 3, 4, 0, 0, 0, 0, 0, 0, 0, 0, 0, 0, 0, 0]⟩
    let edges : Packed := ⟨.float32x4, .floats #v[.ofBits 0xFFC00001, .ofBits 0x80000000, .zero, .nan]⟩
    let others : Packed := ⟨.float32x4, .floats #v[.nan, .zero, .ofBits 0x80000000, .ofBits 0x7F800002]⟩
    let truths : Packed := ⟨.bool32x4, .bools #v[true, true, true, true, false, false, false, false, false, false, false,
      false, false, false, false, false]⟩
    Value.sameValueZero .empty (.vector signed) (.vector float) = true ∧
      Value.sameValueZero .empty (.vector float) (.vector unsigned) = true ∧
      Value.sameValueZero .empty (.vector signed) (.vector unsigned) = true ∧ edges.WellFormed ∧ others.WellFormed ∧
      signed.WellFormed ∧ truths.WellFormed ∧ edges.shape = others.shape ∧
      Value.sameValueZero .empty (.vector edges) (.vector others) = true ∧ truths.shape.isBool ≠ signed.shape.isBool ∧
      Value.sameValueZero .empty (.vector truths) (.vector signed) = false := by
  intro signed float unsigned edges others truths
  have hedges : edges.WellFormed := by decide
  have hothers : others.WellFormed := by decide
  have hsigned : signed.WellFormed := by decide
  have htruths : truths.WellFormed := by decide
  have hfirst : Value.sameValueZero .empty (.vector signed) (.vector float) = true := by decide +kernel
  have hsecond : Value.sameValueZero .empty (.vector float) (.vector unsigned) = true := by decide +kernel
  have hlanes : ∀ i < edges.shape.laneCount, (edges.lane i).Identified (others.lane i) := by
    intro i hi
    rw [Shape.laneCount_of_isFloat (show edges.shape.isFloat = true from rfl)] at hi
    interval_cases i
    · exact Or.inr (Or.inl (by decide))
    · exact Or.inr (Or.inr (by decide))
    · exact Or.inr (Or.inr (by decide))
    · exact Or.inr (Or.inl (by decide))
  obtain ⟨-, -, htrans, hvectors⟩ := sameValueZero_equivalence .empty
  exact ⟨hfirst, hsecond, htrans _ _ _ hfirst hsecond, hedges, hothers, hsigned, htruths, rfl,
    ((hvectors edges others hedges hothers).2.1 rfl).2 hlanes, by decide,
    (hvectors truths signed htruths hsigned).2.2 (by decide)⟩

end Vector128
