/-
The text of a Number is read as that Number.

Every layout of a decimal spells it (`Number.exists_spelling`): leading zeros and the point change neither the digits nor
the power of ten, and trailing zeros stand for one. So the text of a finite Number is a numeral whose value is the
shortest decimal, which rounds to the Number. What the text does not show is left out in `Binary.plain`: the sign of a
zero, and the sign and the payload of a NaN.

- `Number.ofLiteral_text`: the text of a Number is read as the plain form of it.
- `Number.isTextChar_of_mem`: the characters that such a text is made of.
-/
import Vector128.Number.Reading
import Vector128.Proofs.Number.Rounded

namespace Vector128

/-- the value that the text of a value shows: there is one zero, and one NaN -/
def Binary.plain {f : Format} (x : Binary f) : Binary f :=
  if x.isNaN then nan else if x.isZero then zero else x

namespace Number

open Numeral (Spelling withPoint withPoint_of_ne_nil exponentTail)

theorem pointed_cons (first : Char) (rest : List Char) : pointed (first :: rest) = first :: withPoint rest := by
  cases rest with
  | nil => rfl
  | cons next rest => rfl

variable (d : Decimal)

theorem digits_ne_nil : d.digits ≠ [] := Nat.toDigits_ne_nil

theorem isDigit_digits : ∀ c ∈ d.digits, c.isDigit = true := fun _ hc => isDigit_toDigits hc

theorem natOfDigits_digits : natOfDigits d.digits = d.coefficient := natOfDigits_toDigits _

/-- a written number spells a decimal, whichever sign it is given -/
def Spells (p : Spelling) (d : Decimal) : Prop :=
  ∀ negative, (p.numeral negative).magnitude = (d.coefficient : ℚ) * 10 ^ d.exponent

/-- with the digits of the coefficient and its power of ten, it is spelled as it is -/
theorem spells_of_eq {d : Decimal} {p : Spelling} (hdigits : natOfDigits (p.whole ++ p.fraction) = d.coefficient)
    (hexponent : p.exponent.getD 0 - p.fraction.length = d.exponent) : Spells p d := by
  intro negative
  rw [Numeral.magnitude, Spelling.numeral, hdigits, hexponent]

/-- digits, and trailing zeros in place of a power of ten -/
theorem exists_spelling_zeros (h : 0 ≤ d.exponent) : ∃ p : Spelling, positional d = p.text ∧ Spells p d := by
  have hdigits : ∀ c ∈ d.digits ++ zeros d.exponent.toNat ++ [], c.isDigit = true := by
    intro c hc
    rw [List.append_nil, List.mem_append] at hc
    exact hc.elim (isDigit_digits d c) isDigit_zeros
  refine ⟨⟨d.digits ++ zeros d.exponent.toNat, [], none, List.append_ne_nil_of_left_ne_nil (digits_ne_nil d) _, hdigits⟩,
    ?_, ?_⟩
  · rw [positional, if_pos h]
    simp [Spelling.text, withPoint, exponentTail]
  · intro negative
    obtain ⟨k, hk⟩ := Int.eq_ofNat_of_zero_le h
    simp only [Numeral.magnitude, Spelling.numeral, List.append_nil, natOfDigits_append_zeros, natOfDigits_digits, hk]
    simp

theorem exists_spelling_inside (h : d.exponent < 0) (hpoint : 0 < d.digits.length + d.exponent) :
    ∃ p : Spelling, positional d = p.text ∧ Spells p d := by
  obtain ⟨k, hk⟩ := Int.eq_ofNat_of_zero_le hpoint.le
  have htake : d.digits.take k ≠ [] := by
    rw [Ne, List.take_eq_nil_iff]
    rintro (hzero | hnil)
    · omega
    · exact digits_ne_nil d hnil
  have hdrop : d.digits.drop k ≠ [] := by
    rw [Ne, List.drop_eq_nil_iff]
    omega
  have hdigits : ∀ c ∈ d.digits.take k ++ d.digits.drop k, c.isDigit = true := by
    rw [List.take_append_drop]
    exact isDigit_digits d
  refine ⟨⟨d.digits.take k, d.digits.drop k, none, htake, hdigits⟩, ?_, spells_of_eq ?_ ?_⟩
  · simp only [positional, if_neg (not_le.2 h), if_pos hpoint]
    simp [hk, Spelling.text, withPoint_of_ne_nil hdrop, exponentTail]
  · rw [List.take_append_drop, natOfDigits_digits]
  · simp only [List.length_drop, Option.getD_none]
    omega

theorem exists_spelling_before (hpoint : d.digits.length + d.exponent ≤ 0) :
    ∃ p : Spelling, positional d = p.text ∧ Spells p d := by
  obtain ⟨k, hk⟩ := Int.eq_ofNat_of_zero_le (show 0 ≤ -(d.digits.length + d.exponent) by omega)
  have hlength : 0 < d.digits.length := List.length_pos_of_ne_nil (digits_ne_nil d)
  have hne : zeros k ++ d.digits ≠ [] := List.append_ne_nil_of_right_ne_nil _ (digits_ne_nil d)
  -- the zero in front of the point is one more of the leading zeros
  have hdigits : ∀ c ∈ zeros (k + 1) ++ d.digits, c.isDigit = true := by
    intro c hc
    rw [List.mem_append] at hc
    exact hc.elim isDigit_zeros (isDigit_digits d c)
  refine ⟨⟨['0'], zeros k ++ d.digits, none, by simp, hdigits⟩, ?_, spells_of_eq ?_ ?_⟩
  · simp only [positional, if_neg (show ¬ 0 ≤ d.exponent by omega), if_neg (not_lt.2 hpoint), hk, Int.toNat_natCast]
    simp [Spelling.text, withPoint_of_ne_nil hne, exponentTail]
  · exact (natOfDigits_zeros_append (k + 1) d.digits).trans (natOfDigits_digits d)
  · simp only [List.length_append, zeros, List.length_replicate, Option.getD_none]
    omega

/-- one digit before the point, and an exponent -/
theorem exists_spelling_scientific : ∃ p : Spelling, (scientific "+" d).toList = p.text ∧ Spells p d := by
  obtain ⟨first, rest, hfirst⟩ := List.exists_cons_of_ne_nil (digits_ne_nil d)
  have hdigits : ∀ c ∈ [first] ++ rest, c.isDigit = true := by
    rw [List.singleton_append, ← hfirst]
    exact isDigit_digits d
  refine ⟨⟨[first], rest, some (d.digits.length + d.exponent - 1), by simp, hdigits⟩, ?_, spells_of_eq ?_ ?_⟩
  · rw [scientific, hfirst, pointed_cons]
    simp [Spelling.text, exponentTail]
  · rw [List.singleton_append, ← hfirst, natOfDigits_digits]
  · simp only [hfirst, List.length_cons, Option.getD_some]
    omega

/-- **Every layout spells the decimal.** -/
theorem exists_spelling : ∃ p : Spelling, (decimalText d).toList = p.text ∧ Spells p d := by
  unfold decimalText
  dsimp only
  split_ifs with hpositional
  · rw [String.toList_ofList]
    rcases lt_or_ge d.exponent 0 with h | h
    · rcases lt_or_ge (0 : Int) (d.digits.length + d.exponent) with hpoint | hpoint
      · exact exists_spelling_inside d h hpoint
      · exact exists_spelling_before d hpoint
    · exact exists_spelling_zeros d h
  · exact exists_spelling_scientific d

/-! ## Reading -/

variable {x : Double}

/-- what the text of a Number can be -/
inductive Written (x : Double) : List Char → Prop
  | nan (hn : x.isNaN = true) : Written x "NaN".toList
  | zero (hn : x.isNaN = false) (hz : x.isZero = true) : Written x "0".toList
  | infinity (hi : x.isInfinite = true) : Written x (signText x.negative ++ "Infinity".toList)
  | spelling (hx : x.isFinite = true) (hz : x.isZero = false) (p : Spelling)
      (hp : (p.numeral x.negative).toDouble = x) : Written x (signText x.negative ++ p.text)

theorem toList_signed (negative : Bool) (s : String) :
    ((if negative then "-" else "") ++ s).toList = signText negative ++ s.toList := by
  rw [String.toList_append, signText]
  split_ifs <;> rfl

/-- the text of a finite Number other than zero is its sign and a layout of its shortest decimal -/
theorem toList_text (hx : x.isFinite = true) (hz : x.isZero = false) : (text x).toList =
    signText x.negative ++ (decimalText (Decimal.shortest .double x.code.toNat)).toList := by
  rw [text, Binary.isNaN_of_isFinite hx, hz, if_neg Bool.false_ne_true, if_neg Bool.false_ne_true, toList_signed,
    Binary.isInfinite_of_isFinite hx, if_neg Bool.false_ne_true]

/-- the text of a finite Number other than zero spells its shortest decimal, and so the Number -/
theorem written_text (x : Double) : Written x (text x).toList := by
  cases hn : x.isNaN with
  | true =>
    rw [text, hn, if_pos rfl]
    exact .nan hn
  | false =>
    cases hz : x.isZero with
    | true =>
      rw [text, hn, hz, if_neg Bool.false_ne_true, if_pos rfl]
      exact .zero hn hz
    | false =>
      cases hi : x.isInfinite with
      | true =>
        rw [text, hn, hz, if_neg Bool.false_ne_true, if_neg Bool.false_ne_true, toList_signed, hi, if_pos rfl]
        exact .infinity hi
      | false =>
        have hx := x.isFinite_of_not hn hi
        obtain ⟨p, htext, hspells⟩ := exists_spelling (Decimal.shortest .double x.code.toNat)
        rw [toList_text hx hz, htext]
        refine .spelling hx hz p ?_
        have hpos : 0 < x.code.toNat := Nat.pos_of_ne_zero (of_decide_eq_false hz)
        have hshortest : (p.numeral x.negative).toDouble = Numeral.toDouble ⟨x.negative,
            (Decimal.shortest .double x.code.toNat).coefficient, (Decimal.shortest .double x.code.toNat).exponent⟩ :=
          Numeral.toDouble_congr rfl (hspells x.negative)
        rw [hshortest, Numeral.toDouble_eq, Binary.ofUnits, Decimal.codeOf_shortest hpos (of_decide_eq_true hx)]
        exact x.eq_ofCode.symm

theorem Written.ofLiteral_eq {written : List Char} (h : Written x written) : ofLiteral written = .ok x.plain := by
  unfold Binary.plain
  cases h with
  | nan hn =>
    rw [if_pos hn]
    decide
  | zero hn hz =>
    rw [hn, if_neg Bool.false_ne_true, if_pos hz]
    decide
  | infinity hi =>
    have hboth : ∀ negative, ofLiteral (signText negative ++ "Infinity".toList) = .ok (Binary.infinity negative) := by
      decide
    have hx : x = Binary.infinity x.negative := Binary.eq_infinity hi
    have hn : x.isNaN = false := hx ▸ Binary.isNaN_infinity _
    have hz : x.isZero = false := hx ▸ Binary.isZero_infinity (by decide) _
    rw [hboth, ← hx, hn, hz, if_neg Bool.false_ne_true, if_neg Bool.false_ne_true]
  | spelling hx hz p hp =>
    have hne : signText x.negative ++ p.text ≠ [] :=
      List.append_ne_nil_of_right_ne_nil _ (List.append_ne_nil_of_left_ne_nil p.whole_ne _)
    rw [ofLiteral, if_neg hne, p.ofText?_text, Binary.isNaN_of_isFinite hx, hz, if_neg Bool.false_ne_true,
      if_neg Bool.false_ne_true]
    exact congrArg Except.ok hp

/-- **The text of a Number is read as that Number**, save for the sign of a zero and for which NaN it is. -/
theorem ofLiteral_text (x : Double) : ofLiteral (text x).toList = .ok x.plain := (written_text x).ofLiteral_eq

theorem text_ne_nil (x : Double) : (text x).toList ≠ [] := by
  intro hempty
  have hread := ofLiteral_text x
  rw [hempty] at hread
  cases hread

/-! ## Characters -/

def isTextChar (c : Char) : Bool := c.isDigit || "+-.eINafinty".toList.contains c

theorem isTextChar_of_isDigit {c : Char} (h : c.isDigit = true) : isTextChar c = true := by
  rw [isTextChar, h, Bool.true_or]

theorem isTextChar_signText {negative : Bool} {c : Char} (hc : c ∈ signText negative) : isTextChar c = true := by
  cases negative with
  | true =>
    rw [List.mem_singleton.1 hc]
    decide
  | false => cases hc

theorem isTextChar_exponentTail {e : Option Int} {c : Char} (hc : c ∈ exponentTail e) : isTextChar c = true := by
  cases e with
  | none => cases hc
  | some e =>
    rw [exponentTail, Numeral.toList_exponentText, List.mem_cons, List.mem_append] at hc
    rcases hc with rfl | hc | hc
    · decide
    · split_ifs at hc <;> · obtain rfl := List.mem_singleton.1 hc; decide
    · exact isTextChar_of_isDigit (isDigit_toDigits hc)

theorem isTextChar_spelling (p : Spelling) {c : Char} (hc : c ∈ p.text) : isTextChar c = true := by
  rw [Spelling.text, List.mem_append, List.mem_append] at hc
  rcases hc with hc | hc | hc
  · exact isTextChar_of_isDigit (p.digits c (List.mem_append_left _ hc))
  · by_cases hfraction : p.fraction = []
    · rw [hfraction] at hc
      cases hc
    · rw [withPoint_of_ne_nil hfraction, List.mem_cons] at hc
      rcases hc with rfl | hc
      · decide
      · exact isTextChar_of_isDigit (p.digits c (List.mem_append_right _ hc))
  · exact isTextChar_exponentTail hc

theorem Written.isTextChar {written : List Char} (h : Written x written) : ∀ c ∈ written, isTextChar c = true := by
  have hnan : "NaN".toList.all Number.isTextChar = true := by decide
  have hzero : "0".toList.all Number.isTextChar = true := by decide
  have hinfinity : "Infinity".toList.all Number.isTextChar = true := by decide
  cases h with
  | nan => exact List.all_eq_true.1 hnan
  | zero => exact List.all_eq_true.1 hzero
  | infinity => exact fun c hc => (List.mem_append.1 hc).elim isTextChar_signText (List.all_eq_true.1 hinfinity c)
  | spelling _ _ p => exact fun c hc => (List.mem_append.1 hc).elim isTextChar_signText (isTextChar_spelling p)

theorem isTextChar_of_mem {c : Char} (hc : c ∈ (text x).toList) : isTextChar c = true := (written_text x).isTextChar c hc

end Number

end Vector128
