/-
The text of a vector is a literal of that vector.

Behind its `SIMD.` the text is a constructor, and its elements are the texts of the lanes. They have neither blanks nor
commas (`Literal.element_laneText`), each is read as the value of the lane it was written for (`Literal.parse_laneText`),
and casting the values makes the lanes again. What is lost on the way is lost in the text: the sign of a zero, and which
NaN a lane was (`Lane.ReadFrom`).
-/
import Vector128.Proofs.Literal.Parse
import Vector128.Proofs.Number.Text
import Vector128.Proofs.Packed.Lens

namespace Vector128

namespace Binary

variable {f : Format}

/-- an integer has a plain value: it is no negative zero -/
theorem plain_ofInt {n : Int} (hn : n.natAbs < 2 ^ 53) : (ofInt n : Double).plain = ofInt n := by
  obtain ⟨hfinite, hunits⟩ := Number.ofInt_exact hn.le
  rw [plain, isNaN_of_isFinite hfinite, if_neg Bool.false_ne_true]
  split_ifs with hzero
  · rw [isZero_iff_units, hunits, mul_eq_zero] at hzero
    obtain rfl := hzero.resolve_right (Int.natCast_ne_zero.2 (one_pos _).ne')
    exact (ofInt_zero _).symm
  · rfl

/-- the plain value in the format of Numbers is the Number's plain value -/
theorem convert_plain (x : Single) : (x.plain.convert : Double) = (x.convert : Double).plain := by
  have hnan : ((nan : Single).convert : Double) = nan := by decide
  have hzero : ((zero : Single).convert : Double) = zero := by decide +kernel
  rw [plain, plain, isNaN_convert (by decide)]
  cases hn : x.isNaN with
  | true => rw [if_pos rfl, if_pos rfl, hnan]
  | false =>
    rw [isZero_convert Format.single_embeds_double (by decide) (by decide) hn, if_neg Bool.false_ne_true,
      if_neg Bool.false_ne_true]
    split_ifs
    · exact hzero
    · rfl

end Binary

/-- the lane whose text a lane has -/
def Lane.plain : Lane → Lane
  | .float x => .float x.plain
  | l => l

/-- A lane after it was written and read: of a NaN it is some NaN, and a zero has lost its sign. All else is as it was,
bit by bit. -/
def Lane.ReadFrom : Lane → Lane → Prop
  | .float y, .float x => if x.isNaN then y.isNaN = true else if x.isZero then y = Binary.zero else y = x
  | m, l => m = l

theorem Lane.ReadFrom.float {m : Lane} {x : Single} (h : m.ReadFrom (.float x)) :
    ∃ y, m = .float y ∧ if x.isNaN then y.isNaN = true else if x.isZero then y = Binary.zero else y = x := by
  cases m with
  | float y => exact ⟨y, rfl, h⟩
  | int n => cases (show Lane.int n = .float x from h)
  | bool b => cases (show Lane.bool b = .float x from h)

theorem Lane.Same.readFrom {l m : Lane} (h : m.Same l.plain) : m.ReadFrom l := by
  cases l with
  | float x =>
    cases m with
    | float y =>
      have hy : y = x.plain ∨ y.isNaN = true ∧ x.plain.isNaN = true := h
      show if x.isNaN then y.isNaN = true else if x.isZero then y = Binary.zero else y = x
      rw [Binary.plain] at hy
      split_ifs at hy ⊢ with hn hz
      · rcases hy with rfl | hy
        · decide
        · exact hy.1
      · rcases hy with hy | hy
        · exact hy
        · exact absurd hy.2 (by decide)
      · rcases hy with hy | hy
        · exact hy
        · exact absurd hy.2 hn
    | int n => cases (show Lane.int n = .float x.plain from h)
    | bool b => cases (show Lane.bool b = .float x.plain from h)
  | int n => cases m <;> exact h
  | bool b => cases m <;> exact h

namespace Shape

variable {s : Shape} {l m : Lane}

theorem Stores.plain (h : s.Stores l) : s.Stores l.plain := by
  cases l with
  | float x => exact ⟨h.accepts, rfl⟩
  | int n => exact h
  | bool b => exact h

/-- a lane that was written and read shows the same value -/
theorem sameLane_of_readFrom (h : m.ReadFrom l) : (s.laneValue m).sameLane (s.laneValue l) = true := by
  cases l with
  | float x =>
    obtain ⟨y, rfl, hy⟩ := h.float
    show (y.convert : Double).sameValue x.convert = true
    split_ifs at hy with hn hz
    · rw [Binary.sameValue, Binary.isNaN_convert (by decide), Binary.isNaN_convert (by decide), hy, hn]
      rfl
    · have hcode : x.code.toNat = 0 := of_decide_eq_true hz
      have hboth : ∀ negative, ((Binary.zero : Single).convert : Double).sameValue
          (Binary.ofCode negative 0 : Single).convert = true := by decide +kernel
      rw [hy, x.eq_ofCode, hcode]
      exact hboth x.negative
    · rw [hy, Binary.sameValue_refl]
  | int n =>
    obtain rfl : m = .int n := by cases m <;> exact h
    exact Binary.sameValue_refl _
  | bool b =>
    obtain rfl : m = .bool b := by cases m <;> exact h
    exact beq_self_eq_true b

end Shape

/-! ## Elements -/

namespace Literal

variable {s : Shape} {l : Lane}

theorem isBlank_of_isTextChar {c : Char} (h : Number.isTextChar c = true) : Text.isBlank c = false := by
  rw [Number.isTextChar, Bool.or_eq_true] at h
  rcases h with hdigit | hword
  · obtain ⟨hlow, hhigh⟩ := Char.isDigit_iff_toNat.1 hdigit
    have hlow' : 48 ≤ c.toNat := hlow
    have hhigh' : c.toNat ≤ 57 := hhigh
    -- no range of blanks reaches into the digits
    rw [Text.isBlank, List.any_eq_false]
    intro range hrange
    have hranges : ∀ range ∈ Text.blankRanges, range.2 < 48 ∨ 57 < range.1 := by decide
    have houtside := hranges range hrange
    simp only [Bool.and_eq_true, decide_eq_true_eq]
    omega
  · have hnone : "+-.eINafinty".toList.any Text.isBlank = false := by decide
    exact Bool.eq_false_iff.2 (List.any_eq_false.1 hnone c (List.contains_iff_mem.1 hword))

theorem element_numberText (x : Double) : Element (Number.text x).toList where
  ne_nil := Number.text_ne_nil x
  no_comma := fun hc => absurd (Number.isTextChar_of_mem hc) (by decide)
  no_blank := List.any_eq_false.2 fun _ hc => Bool.eq_false_iff.1 (isBlank_of_isTextChar (Number.isTextChar_of_mem hc))

theorem element_booleanText (b : Bool) : Element (booleanText b).toList := by
  cases b with
  | true => exact ⟨by decide, by decide, by decide⟩
  | false => exact ⟨by decide, by decide, by decide⟩

/-- the text of a Number has none of the characters that other literals have -/
theorem formOf_numberText (x : Double) : formOf (Number.text x).toList = .number := by
  -- every keyword has a letter or a brace that no Number has
  have hwords : ∀ word ∈ keywords, word.toList.all Number.isTextChar = false := by decide
  refine formOf_eq_number ?_ ?_ ?_
  · intro word hw heq
    have hall := List.all_eq_true.2 fun c hc => Number.isTextChar_of_mem (x := x) hc
    rw [← heq, hwords word hw] at hall
    cases hall
  · intro c hc
    have hchar := Number.isTextChar_of_mem (List.mem_of_mem_head? hc)
    constructor
    · rintro rfl
      exact absurd hchar (by decide)
    · rintro rfl
      exact absurd hchar (by decide)
  · exact fun hc => absurd (Number.isTextChar_of_mem hc) (by decide)

theorem parse_numberText (x : Double) : parse (Number.text x).toList = pure (.number x.plain) :=
  parse_number (Text.trim_of_any (element_numberText x).no_blank) (formOf_numberText x) (Number.ofLiteral_text x)

theorem parse_booleanText (b : Bool) : parse (booleanText b).toList = pure (.boolean b) := by
  have hform : formOf (booleanText b).toList = .constant (.boolean b) := by
    cases b with
    | true => decide
    | false => decide
  rw [parse_eq, Text.trim_of_any (element_booleanText b).no_blank, hform]

theorem element_laneText (s : Shape) (l : Lane) : Element (l.text s).toList := by
  cases l with
  | int n => exact element_numberText _
  | float x => exact element_numberText _
  | bool b => exact element_booleanText b

/-- **The text of a lane is read as the value of that lane.** -/
theorem parse_laneText (h : s.Stores l) : parse (l.text s).toList = pure (s.laneValue l.plain) := by
  cases l with
  | int n =>
    have hn : s.width.wrap n = n := Lane.int.inj h.normal
    have hplain : (Binary.ofInt (s.visible n) : Double).plain = Binary.ofInt (s.visible n) :=
      Binary.plain_ofInt ((Shape.natAbs_visible_lt h.accepts hn).trans (by decide))
    exact (parse_numberText _).trans (congrArg (fun x => pure (Value.number x)) hplain)
  | float x => exact (parse_numberText _).trans (congrArg (fun x => pure (Value.number x)) x.convert_plain.symm)
  | bool b => exact parse_booleanText b

end Literal

/-! ## Vectors -/

/-- the text of a vector behind its first word -/
def Packed.literal (v : Packed) : String :=
  v.shape.name ++ "(" ++ ",".intercalate (v.lanes.map (Lane.text v.shape)) ++ ")"

theorem Packed.text_eq (v : Packed) : v.text = "SIMD." ++ v.literal := by
  simp only [text, literal, String.append_assoc]

theorem Shape.name_chars (s : Shape) : s.name.toList ≠ [] ∧ s.name.toList.all Literal.isNameChar = true := by
  cases s <;> decide

theorem Shape.ofName?_name (s : Shape) : ofName? s.name = some s := by
  cases s <;> decide

namespace Literal

/-- the elements of the text of a vector are read as what is seen of its lanes -/
theorem parse_literal {v : Packed} (hv : v.WellFormed) : parse v.literal.toList =
    construct (Text.trim Text.isBlank v.literal.toList) v.shape.name.toList
      (v.lanes.map fun l => v.shape.laneValue l.plain) := by
  have hliteral : v.literal.toList = v.shape.name.toList ++
      '(' :: ([','].intercalate (v.lanes.map fun l => (l.text v.shape).toList) ++ [')']) := by
    simp only [Packed.literal, String.toList_append, String.toList_intercalate, List.map_map, List.append_assoc]
    rfl
  have hpieces : ∀ piece ∈ v.lanes.map fun l => (l.text v.shape).toList, Element piece := by
    intro piece hp
    obtain ⟨l, -, rfl⟩ := List.mem_map.1 hp
    exact element_laneText _ _
  have hlanes : ∀ l ∈ v.lanes, (parse ∘ fun l => (l.text v.shape).toList) l = pure (v.shape.laneValue l.plain) := by
    intro l hl
    obtain ⟨i, -, rfl⟩ := List.mem_map.1 hl
    exact parse_laneText (hv.stores i)
  rw [parse_constructor v.shape.name_chars (hliteral ▸ Constructor.of_elements hpieces), List.mapM_map, mapM_eq_pure hlanes,
    pure_bind]

theorem construct_vector {s : Shape} {values : List Value} {w : Packed} (h : s.create values = .ok w)
    (literal : List Char) (st : Store) : construct literal s.name.toList values st = .ok (.vector w, st) := by
  rw [construct, String.ofList_toList, s.ofName?_name]
  dsimp only
  rw [h]

end Literal

/-- casting the values that were read makes the vector again -/
theorem Shape.create_plain {v : Packed} (hv : v.WellFormed) :
    ∃ w, v.shape.create (v.lanes.map fun l => v.shape.laneValue l.plain) = .ok w ∧ w.WellFormed ∧ w.shape = v.shape ∧
      ∀ i < v.shape.laneCount, (w.lane i).ReadFrom (v.lane i) := by
  choose g hg hsame using fun i => toLane_laneValue (hv.stores i).plain
  have hvalue : ∀ i < v.shape.laneCount, (v.lanes.map fun l => v.shape.laneValue l.plain)[i]? =
      some (v.shape.laneValue (v.lane i).plain) := by
    intro i hi
    simp [Packed.lanes, hi]
  obtain ⟨w, hw, hwf, hws, hlane⟩ := create_lanes fun i hi => ⟨_, hvalue i hi, hg i⟩
  refine ⟨w, hw, hwf, hws, fun i hi => ?_⟩
  rw [hlane i hi]
  exact (hsame i).readFrom

theorem Packed.sameValueZero_of_readFrom {v w : Packed} (hs : w.shape = v.shape)
    (h : ∀ i < v.shape.laneCount, (w.lane i).ReadFrom (v.lane i)) : w.sameValueZero v = true := by
  rw [sameValueZero_iff_sameLane hs.symm, hs]
  intro i hi
  exact Shape.sameLane_of_readFrom (h i hi)

/-- **Printed vectors parse back.** Behind its first word the text of a vector is a literal. It is read, with no effect on
the store, as a well-formed vector of the same shape and with the same lanes bit by bit, save that a zero has lost its
sign and that a NaN may be another one. So it is the same under SameValueZero. -/
theorem text_parses_back {v : Packed} (hv : v.WellFormed) (st : Store) : ∃ text w, v.text = "SIMD." ++ text ∧
    Literal.parse text.toList st = .ok (.vector w, st) ∧ w.WellFormed ∧ w.shape = v.shape ∧
    (∀ i < v.shape.laneCount, (w.lane i).ReadFrom (v.lane i)) ∧ w.sameValueZero v = true := by
  obtain ⟨w, hw, hwf, hs, hlanes⟩ := Shape.create_plain hv
  refine ⟨v.literal, w, v.text_eq, ?_, hwf, hs, hlanes, Packed.sameValueZero_of_readFrom hs hlanes⟩
  rw [Literal.parse_literal hv]
  exact Literal.construct_vector hw _ st

/-- A NaN with a sign and a payload, a negative zero, and the least and the greatest magnitude. -/
theorem text_parses_back_limits :
    let v : Packed := ⟨.float32x4, .floats #v[.ofBits 0xFF800001, .ofBits 0x80000000, .ofBits 0x00000001,
      .ofBits 0x7F7FFFFF]⟩
    let text := "Float32x4(NaN,0,1.401298464324817e-45,3.4028234663852886e+38)"
    v.WellFormed ∧ v.text = "SIMD." ++ text ∧ ∃ w, Literal.parse text.toList .empty = .ok (.vector w, .empty) ∧
      (∃ x, w.lane 0 = .float x ∧ x.isNaN = true) ∧ w.lane 1 = .float .zero ∧ w.lane 2 = .float (.ofBits 1) ∧
      w.lane 3 = .float (.ofBits 0x7F7FFFFF) ∧ w.sameValueZero v = true := by
  intro v text
  have hv : v.WellFormed := by decide
  have htext : v.text = "SIMD." ++ text := by decide +kernel
  obtain ⟨text', w, htext', hparse, -, -, hlanes, hsame⟩ := text_parses_back hv .empty
  obtain rfl : text' = text := by
    have htoList := congrArg String.toList (htext'.symm.trans htext)
    rw [String.toList_append, String.toList_append] at htoList
    exact String.toList_inj.1 (List.append_cancel_left htoList)
  obtain ⟨x, hx, hnan⟩ := (hlanes 0 (by decide)).float
  obtain ⟨y, hy, hzero⟩ := (hlanes 1 (by decide)).float
  obtain ⟨z, hz, hleast⟩ := (hlanes 2 (by decide)).float
  obtain ⟨t, ht, hgreatest⟩ := (hlanes 3 (by decide)).float
  obtain rfl : y = .zero := hzero
  obtain rfl : z = .ofBits 1 := hleast
  obtain rfl : t = .ofBits 0x7F7FFFFF := hgreatest
  exact ⟨hv, htext, w, hparse, ⟨x, hx, hnan⟩, hy, hz, ht, hsame⟩

end Vector128
