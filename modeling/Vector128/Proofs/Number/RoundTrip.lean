/-
Conversion to a Number undoes conversion to a text.

The conversion of scripts reads more than decimals, so a text of a Number could be taken for something else on the way.
It is not: none of its characters announces a radix (`Number.radixDigits?_eq_none`), the only word that it can be is a
special value, and what is a numeral is no such word (`Number.ofTrimmed?_of_numeral`). Blanks around it go away first,
and they end where the text begins, since a text of a Number has none (`Text.trim_append`).

`toNumber_undoes_text` is the law, for scripts as they compare Numbers.
-/
import Vector128.Proofs.Literal.RoundTrip

namespace Vector128

/-- the plain form of a Number is the same Number, as scripts compare them -/
theorem Binary.sameValue_plain (x : Double) : x.plain.sameValue x = true := by
  unfold plain
  split_ifs with hn hz
  · have hnan : (nan : Double).isNaN = true := by decide
    rw [sameValue, hnan, hn]
    rfl
  · have hrank : x.rank = (zero : Double).rank := by
      rw [rank, of_decide_eq_true hz]
      split_ifs <;> rfl
    have hzero : (zero : Double).isNaN = false := by decide
    rw [sameValue, equal, unordered, hzero, Bool.eq_false_iff.2 hn, decide_eq_true hrank.symm]
    rfl
  · exact x.sameValue_refl

namespace Number

variable {x : Double} {text : List Char}

theorem isNumberBlank_of_isTextChar {c : Char} (h : isTextChar c = true) : Text.isNumberBlank c = false := by
  have hmark : c.toNat ≠ 0xFEFF := by
    intro hc
    obtain rfl : c = Char.ofNat 0xFEFF := by rw [← hc, Char.ofNat_toNat]
    exact absurd h (by decide)
  rw [Text.isNumberBlank, Literal.isBlank_of_isTextChar h, beq_false_of_ne hmark]
  rfl

theorem radixDigits?_eq_none (h : ∀ c ∈ text, isTextChar c = true) : radixDigits? text = none := by
  unfold radixDigits?
  split
  case h_2 => rfl
  case h_1 mark digits =>
    have hmark : isTextChar mark = true := h mark (List.mem_cons_of_mem _ List.mem_cons_self)
    have hno : ∀ letter ∈ "xXoObB".toList, mark ≠ letter := by
      rintro letter hletter rfl
      have hnone : "xXoObB".toList.any isTextChar = false := by decide
      exact List.any_eq_false.1 hnone mark hletter hmark
    simp [hno]

/-! ## Reading -/

theorem ofTrimmed?_of_numeral {n : Numeral} (hradix : radixDigits? text = none) (hn : Numeral.ofText? text = some n) :
    ofTrimmed? text = some n.toDouble := by
  have hword : (splitSign text).2 ≠ "Infinity".toList := by
    intro hrest
    have hnone : Numeral.ofText? text = none := by
      simp only [Numeral.ofText?, hrest]
      rfl
    rw [hnone] at hn
    cases hn
  rw [ofTrimmed?, hradix]
  dsimp only
  rw [if_neg hword, hn]
  rfl

theorem Written.ofTrimmed?_eq (h : Written x text) : (ofTrimmed? text).getD Binary.nan = x.plain := by
  have hradix := radixDigits?_eq_none h.isTextChar
  unfold Binary.plain
  cases h with
  | nan hn =>
    rw [if_pos hn]
    decide
  | zero hn hz =>
    rw [hn, if_neg Bool.false_ne_true, if_pos hz]
    decide
  | infinity hi =>
    have hboth : ∀ negative, ofTrimmed? (signText negative ++ "Infinity".toList) = some (Binary.infinity negative) := by
      decide
    have hx : x = Binary.infinity x.negative := Binary.eq_infinity hi
    have hn : x.isNaN = false := hx ▸ Binary.isNaN_infinity _
    have hz : x.isZero = false := hx ▸ Binary.isZero_infinity (by decide) _
    rw [hboth, ← hx, hn, hz, if_neg Bool.false_ne_true, if_neg Bool.false_ne_true]
    rfl
  | spelling hx hz p hp =>
    rw [ofTrimmed?_of_numeral hradix (p.ofText?_text _), Binary.isNaN_of_isFinite hx, hz, if_neg Bool.false_ne_true,
      if_neg Bool.false_ne_true]
    exact hp

/-- **The text of a Number is converted to that Number**, save for the sign of a zero and for which NaN it is. -/
theorem ofText_text {before after : List Char} (x : Double) (hbefore : ∀ c ∈ before, Text.isNumberBlank c = true)
    (hafter : ∀ c ∈ after, Text.isNumberBlank c = true) :
    ofText (before ++ (Number.text x).toList ++ after) = x.plain := by
  have hnone : (Number.text x).toList.any Text.isNumberBlank = false :=
    List.any_eq_false.2 fun c hc => Bool.eq_false_iff.1 (isNumberBlank_of_isTextChar (isTextChar_of_mem hc))
  rw [ofText, Text.trim_append hbefore hafter, Text.trim_of_any hnone]
  rw [if_neg (text_ne_nil x), (written_text x).ofTrimmed?_eq]

end Number

/-- **Conversion to a Number undoes conversion to a text.** The text of a Number, with any blanks around it, is
converted to a Number that scripts take for the same. It is the very same, unless that is a zero or a NaN. -/
theorem toNumber_undoes_text (st : Store) (x : Double) (before after : String)
    (hbefore : ∀ c ∈ before.toList, Text.isNumberBlank c = true)
    (hafter : ∀ c ∈ after.toList, Text.isNumberBlank c = true) :
    ∃ y, (Value.string (before ++ (Value.number x).text st ++ after)).toNumber = .ok y ∧
      Value.sameValueZero st (.number y) (.number x) = true ∧ (x.isNaN = false → x.isZero = false → y = x) := by
  refine ⟨x.plain, ?_, x.sameValue_plain, ?_⟩
  · rw [Value.toNumber, String.toList_append, String.toList_append]
    exact congrArg Except.ok (Number.ofText_text x hbefore hafter)
  · intro hn hz
    rw [Binary.plain, hn, hz, if_neg Bool.false_ne_true, if_neg Bool.false_ne_true]

/-- The text of a negative zero, between a byte order mark and an ideographic space, is read as a zero; that of a power
of ten which has an exponent is read as it was. -/
theorem toNumber_undoes_text_signs :
    let st : Store := Store.empty
    let before := "\uFEFF\t"
    let after := "\u3000"
    (∀ c ∈ before.toList, Text.isNumberBlank c = true) ∧ (∀ c ∈ after.toList, Text.isNumberBlank c = true) ∧
      (∃ y, (Value.string (before ++ (Value.number (Binary.zero : Double).neg).text st ++ after)).toNumber = .ok y ∧
        Value.sameValueZero st (.number y) (.number (Binary.zero : Double).neg) = true) ∧
      (Value.number (Binary.ofBits 0x3E7AD7F29ABCAF48)).text st = "1e-7" ∧
      (Value.string (before ++ (Value.number (Binary.ofBits 0x3E7AD7F29ABCAF48)).text st ++ after)).toNumber =
        .ok (Binary.ofBits 0x3E7AD7F29ABCAF48) := by
  intro st before after
  have hbefore : ∀ c ∈ before.toList, Text.isNumberBlank c = true := List.all_eq_true.1 (by decide)
  have hafter : ∀ c ∈ after.toList, Text.isNumberBlank c = true := List.all_eq_true.1 (by decide)
  have htext : (Value.number (Binary.ofBits 0x3E7AD7F29ABCAF48)).text st = "1e-7" := by decide +kernel
  obtain ⟨y, hy, hsame, -⟩ := toNumber_undoes_text st (Binary.zero : Double).neg before after hbefore hafter
  obtain ⟨z, hz, -, hexact⟩ := toNumber_undoes_text st (Binary.ofBits 0x3E7AD7F29ABCAF48) before after hbefore hafter
  obtain rfl := hexact (by decide) (by decide)
  exact ⟨hbefore, hafter, ⟨y, hy, hsame⟩, htext, hz⟩

end Vector128
