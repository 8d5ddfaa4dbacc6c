/-
Texts of decimals, as scripts convert them.

A text that announces no radix is a Number if it is `Infinity` with a sign or none, or a numeral, and then it is the
infinity or the Number that the numeral is rounded to (`Number.ofTrimmed?_eq_some_iff`). Every other text is NaN. Literals
are read by a larger grammar, with more words in it. What is left of them for scripts are the three texts of infinities and
whatever is made of the characters of numerals (`Number.ofTrimmed?_eq_sifted?`), since no word is.
-/
import Mathlib.Data.String.Basic
import Vector128.Proofs.Decimal.Grammar
import Vector128.Proofs.Number.Radix

namespace Vector128

namespace Number

open Numeral (Spelled Mantissa ExponentPart)

variable {text word : List Char} {negative : Bool} {n : Numeral} {x : Double}

def isNumeralChar (c : Char) : Bool := c.isDigit || ".eE+-".toList.contains c

theorem isNumeralChar_of_isDigit {c : Char} (h : c.isDigit = true) : isNumeralChar c = true := by
  rw [isNumeralChar, h, Bool.true_or]

theorem isNumeralChar_cases {c : Char} (h : isNumeralChar c = true) : c.isDigit = true ∨ c ∈ ".eE+-".toList := by
  rwa [isNumeralChar, Bool.or_eq_true, List.contains_iff_mem] at h

theorem mem_of_signed {body : List Char} (h : Signed negative text body) {c : Char} (hc : c ∈ text) :
    c ∈ body ∨ c = '+' ∨ c = '-' := by
  cases h with
  | bare => exact Or.inl hc
  | plus => exact (List.mem_cons.1 hc).symm.imp_right Or.inl
  | minus => exact (List.mem_cons.1 hc).symm.imp_right Or.inr

theorem mem_of_signed_body {body : List Char} (h : Signed negative text body) {c : Char} (hc : c ∈ body) : c ∈ text := by
  cases h with
  | bare => exact hc
  | plus => exact List.mem_cons_of_mem _ hc
  | minus => exact List.mem_cons_of_mem _ hc

theorem isNumeralChar_of_signed {body : List Char} (h : Signed negative text body)
    (hbody : ∀ c ∈ body, isNumeralChar c = true) : ∀ c ∈ text, isNumeralChar c = true := by
  intro c hc
  rcases mem_of_signed h hc with hc | rfl | rfl
  · exact hbody c hc
  · decide
  · decide

theorem isNumeralChar_of_mantissa {mantissa whole fraction : List Char} (h : Mantissa mantissa whole fraction) :
    ∀ c ∈ mantissa, isNumeralChar c = true := by
  intro c hc
  cases h with
  | whole h => exact isNumeralChar_of_isDigit (h.digits c hc)
  | point h hfraction =>
    rw [List.mem_append, List.mem_cons] at hc
    rcases hc with hc | rfl | hc
    · exact isNumeralChar_of_isDigit (h.digits c hc)
    · decide
    · exact isNumeralChar_of_isDigit (hfraction c hc)
  | fraction h =>
    rcases List.mem_cons.1 hc with rfl | hc
    · decide
    · exact isNumeralChar_of_isDigit (h.digits c hc)

theorem isNumeralChar_of_exponentPart {part : List Char} {e : Int} (h : ExponentPart part e) :
    ∀ c ∈ part, isNumeralChar c = true := by
  cases h with
  | missing => nofun
  | marked hmark hsign hdigits =>
    refine List.forall_mem_cons.2 ⟨?_, isNumeralChar_of_signed hsign fun c hc => ?_⟩
    · rcases hmark with rfl | rfl <;> decide
    · exact isNumeralChar_of_isDigit (hdigits.digits c hc)

theorem isNumeralChar_of_spelled (h : Spelled text n) : ∀ c ∈ text, isNumeralChar c = true := by
  cases h with
  | parts hsign hmantissa hexponent =>
    refine isNumeralChar_of_signed hsign fun c hc => ?_
    exact (List.mem_append.1 hc).elim (isNumeralChar_of_mantissa hmantissa c) (isNumeralChar_of_exponentPart hexponent c)

/-! ## Words -/

theorem named?_eq_some (h : named? negative word = some x) :
    (word.map Char.toLower = "inf".toList ∨ word.map Char.toLower = "infinity".toList) ∧ x = Binary.infinity negative ∨
      word.map Char.toLower = "nan".toList ∧ x.isNaN = true := by
  simp only [named?, String.ofList_eq] at h
  split_ifs at h with hinf hnan
  · exact Or.inl ⟨hinf, (Option.some.inj h).symm⟩
  · obtain rfl := Option.some.inj h
    refine Or.inr ⟨hnan, ?_⟩
    cases negative <;> decide

/-- the words that name a value, in lower case -/
def words : List String := ["inf", "infinity", "nan"]

theorem exists_named?_iff (negative : Bool) :
    (∃ x, named? negative word = some x) ↔ ∃ name ∈ words, word.map Char.toLower = name.toList := by
  constructor
  · rintro ⟨x, hx⟩
    rcases named?_eq_some hx with ⟨hinf | hinf, -⟩ | ⟨hnan, -⟩
    · exact ⟨_, by decide, hinf⟩
    · exact ⟨_, by decide, hinf⟩
    · exact ⟨_, by decide, hnan⟩
  · rintro ⟨name, hmem, hname⟩
    simp only [named?, String.ofList_eq, hname]
    simp only [words, List.mem_cons, List.not_mem_nil, or_false] at hmem
    rcases hmem with rfl | rfl | rfl
    · exact ⟨_, if_pos (Or.inl rfl)⟩
    · exact ⟨_, if_pos (Or.inr rfl)⟩
    · exact ⟨_, (if_neg (by decide)).trans (if_pos rfl)⟩

def wordLetters : List Char := "afintyAFINTY".toList

theorem mem_wordLetters_of_toLower {c : Char} (h : c.toLower ∈ "afinty".toList) : c ∈ wordLetters := by
  by_cases hupper : 'A'.val ≤ c.val ∧ c.val ≤ 'Z'.val
  · have hall : ∀ code ∈ List.range' 65 26, (Char.ofNat code).toLower ∈ "afinty".toList →
        Char.ofNat code ∈ wordLetters := by decide
    rw [UInt32.le_iff_toNat_le, UInt32.le_iff_toNat_le] at hupper
    have hc := hall c.toNat (List.mem_range'_1.2 ⟨hupper.1, Nat.lt_succ_of_le hupper.2⟩)
    rw [Char.ofNat_toNat] at hc
    exact hc h
  · have hsame : c.toLower = c := dif_neg hupper
    rw [hsame] at h
    exact List.mem_append_left "AFINTY".toList h

theorem mem_wordLetters (h : named? negative word = some x) : word ≠ [] ∧ ∀ c ∈ word, c ∈ wordLetters := by
  have hall : ∀ name ∈ words, name.toList ≠ [] ∧ name.toList ⊆ "afinty".toList := by decide
  obtain ⟨name, hmem, hname⟩ := (exists_named?_iff negative).1 ⟨x, h⟩
  obtain ⟨hne, hletters⟩ := hall name hmem
  rw [← hname] at hne hletters
  refine ⟨mt (congrArg (List.map Char.toLower)) hne, fun c hc => ?_⟩
  exact mem_wordLetters_of_toLower (hletters (List.mem_map_of_mem hc))

theorem named?_eq_none (h : ∀ c ∈ word, isNumeralChar c = true) : named? negative word = none := by
  rw [Option.eq_none_iff_forall_ne_some]
  intro x hx
  obtain ⟨hne, hletters⟩ := mem_wordLetters hx
  obtain ⟨c, rest, rfl⟩ := List.exists_cons_of_ne_nil hne
  have hnone : ∀ c ∈ wordLetters, isNumeralChar c = false := List.all_iff_forall_prop.1 (by decide)
  have hc := h c List.mem_cons_self
  rw [hnone c (hletters c List.mem_cons_self)] at hc
  cases hc

theorem named?_splitSign (h : ∀ c ∈ text, isNumeralChar c = true) :
    named? (splitSign text).1 (splitSign text).2 = none :=
  named?_eq_none fun c hc => h c (mem_of_signed_body (signed_splitSign text) hc)

/-! ## Texts without a radix -/

theorem radixDigits?_eq_none_iff : radixDigits? text = none ↔ ∀ m ∈ radixMarks, ¬ ['0', m.1] <+: text := by
  constructor
  · rintro h m hm ⟨digits, rfl⟩
    have hsome := radixDigits?_of_mark hm digits
    exact absurd (hsome.symm.trans h) (Option.some_ne_none _)
  · intro h
    unfold radixDigits?
    split
    case h_2 => rfl
    case h_1 mark digits =>
      have hmark : ∀ m ∈ radixMarks, mark ≠ m.1 := by
        rintro m hm rfl
        exact h m hm ⟨digits, rfl⟩
      simp only [radixMarks, List.forall_mem_cons] at hmark
      obtain ⟨hx, hX, ho, hO, hb, hB, -⟩ := hmark
      rw [if_neg (not_or.2 ⟨hx, hX⟩), if_neg (not_or.2 ⟨ho, hO⟩), if_neg (not_or.2 ⟨hb, hB⟩)]

theorem splitSign_of_infinity (h : Signed negative text "Infinity".toList) :
    splitSign text = (negative, "Infinity".toList) := by
  refine h.splitSign_eq ?_
  rintro c ⟨⟩
  decide

theorem ofTrimmed?_of_infinity (hradix : radixDigits? text = none) (h : Signed negative text "Infinity".toList) :
    ofTrimmed? text = some (Binary.infinity negative) := by
  rw [ofTrimmed?, hradix]
  dsimp only
  rw [splitSign_of_infinity h]
  exact if_pos rfl

/-- **The texts that are Numbers**: infinities and numerals. -/
theorem ofTrimmed?_eq_some_iff (hradix : radixDigits? text = none) : ofTrimmed? text = some x ↔
    (∃ negative, Signed negative text "Infinity".toList ∧ x = Binary.infinity negative) ∨
      ∃ n, Spelled text n ∧ x = n.toDouble := by
  constructor
  · intro h
    rw [ofTrimmed?, hradix] at h
    dsimp only at h
    split_ifs at h with hword
    · have hsign := signed_splitSign text
      rw [hword] at hsign
      exact Or.inl ⟨_, hsign, (Option.some.inj h).symm⟩
    · obtain ⟨n, hn, rfl⟩ := Option.map_eq_some_iff.1 h
      exact Or.inr ⟨n, Numeral.ofText?_eq_some_iff.1 hn, rfl⟩
  · rintro (⟨negative, hsign, rfl⟩ | ⟨n, hn, rfl⟩)
    · exact ofTrimmed?_of_infinity hradix hsign
    · exact ofTrimmed?_of_numeral hradix (Numeral.ofText?_eq_some_iff.2 hn)

/-- The texts of infinities, and the literals that are made of the characters of numerals. -/
def sifted? (text : List Char) : Option Double :=
  if text = "Infinity".toList ∨ text = "+Infinity".toList then some (Binary.infinity false)
  else if text = "-Infinity".toList then some (Binary.infinity true)
  else if text.all isNumeralChar then (ofLiteral text).toOption
  else none

/-- literals without words are numerals -/
theorem toOption_ofLiteral (h : ∀ c ∈ text, isNumeralChar c = true) :
    (ofLiteral text).toOption = (Numeral.ofText? text).map Numeral.toDouble := by
  rw [ofLiteral]
  split_ifs with hnil
  · subst hnil
    rfl
  · cases Numeral.ofText? text with
    | some n => rfl
    | none =>
      dsimp only
      rw [named?_splitSign h]
      rfl

/-- **What scripts convert is what is left of literals.** -/
theorem ofTrimmed?_eq_sifted? (hradix : radixDigits? text = none) : ofTrimmed? text = sifted? text := by
  rw [sifted?]
  split_ifs with hplus hminus hchars
  · refine ofTrimmed?_of_infinity hradix ?_
    rcases hplus with rfl | rfl
    · exact .bare _
    · exact .plus _
  · subst hminus
    exact ofTrimmed?_of_infinity hradix (.minus _)
  · have hnone : (splitSign text).2 ≠ "Infinity".toList := by
      intro hword
      have hsign := signed_splitSign text
      rw [hword] at hsign
      have hI := List.all_eq_true.1 hchars 'I' (mem_of_signed_body hsign (by decide))
      exact absurd hI (by decide)
    rw [toOption_ofLiteral (List.all_eq_true.1 hchars), ofTrimmed?, hradix]
    exact if_neg hnone
  · rw [Option.eq_none_iff_forall_ne_some]
    intro x hx
    rcases (ofTrimmed?_eq_some_iff hradix).1 hx with ⟨negative, hsign, -⟩ | ⟨n, hn, -⟩
    · cases hsign with
      | bare => exact hplus (Or.inl rfl)
      | plus => exact hplus (Or.inr rfl)
      | minus => exact hminus rfl
    · exact hchars (List.all_eq_true.2 (isNumeralChar_of_spelled hn))

/-! ## Conversion -/

theorem ofText_of_not_blank (hne : text ≠ []) (hfirst : ∀ c ∈ text.head?, Text.isNumberBlank c = false)
    (hlast : ∀ c ∈ text.getLast?, Text.isNumberBlank c = false) :
    ofText text = (ofTrimmed? text).getD Binary.nan := by
  rw [ofText, Text.trim_eq_self hfirst hlast, if_neg hne]

/-- what is read is a Number, and what is not is NaN -/
theorem isNaN_ofTrimmed?_iff (hradix : radixDigits? text = none) : ((ofTrimmed? text).getD Binary.nan).isNaN = false ↔
    (∃ negative, Signed negative text "Infinity".toList) ∨ ∃ n, Spelled text n := by
  constructor
  · intro h
    cases hx : ofTrimmed? text with
    | none =>
      rw [hx] at h
      exact absurd h (by decide)
    | some x =>
      refine ((ofTrimmed?_eq_some_iff hradix).1 hx).imp ?_ ?_
      · rintro ⟨negative, hsign, -⟩
        exact ⟨negative, hsign⟩
      · rintro ⟨n, hn, -⟩
        exact ⟨n, hn⟩
  · rintro (⟨negative, hsign⟩ | ⟨n, hn⟩)
    · rw [ofTrimmed?_of_infinity hradix hsign]
      exact Binary.isNaN_infinity negative
    · rw [ofTrimmed?_of_numeral hradix (Numeral.ofText?_eq_some_iff.2 hn)]
      exact n.rounded_toDouble.isNaN

end Number

/-- **Texts of decimals are converted by their grammar.** A text without blanks around it that announces no radix is a
Number if it is `Infinity` or a numeral, either with a sign or none. An infinity keeps its sign, and a numeral is rounded
correctly. It is the Number that sifting the literals gives. -/
theorem decimal_texts_converted {text : String} (hne : text ≠ "")
    (hfirst : ∀ c ∈ text.toList.head?, Text.isNumberBlank c = false)
    (hlast : ∀ c ∈ text.toList.getLast?, Text.isNumberBlank c = false)
    (hradix : ∀ m ∈ Number.radixMarks, ¬ ['0', m.1] <+: text.toList) :
    ∃ x, (Value.string text).toNumber = .ok x ∧
      (x.isNaN = false ↔
        (∃ negative, Signed negative text.toList "Infinity".toList) ∨ ∃ n, Numeral.Spelled text.toList n) ∧
      (∀ negative, Signed negative text.toList "Infinity".toList → x = Binary.infinity negative) ∧
      (∀ n, Numeral.Spelled text.toList n → Number.Rounded x n.negative n.magnitude) ∧
      x = (Number.sifted? text.toList).getD Binary.nan := by
  have hnone := Number.radixDigits?_eq_none_iff.2 hradix
  refine ⟨(Number.ofTrimmed? text.toList).getD Binary.nan, ?_, Number.isNaN_ofTrimmed?_iff hnone, ?_, ?_, ?_⟩
  · rw [Value.toNumber, Number.ofText_of_not_blank (mt String.toList_eq_nil_iff.1 hne) hfirst hlast]
  · intro negative hsign
    rw [Number.ofTrimmed?_of_infinity hnone hsign]
    rfl
  · intro n hn
    rw [Number.ofTrimmed?_of_numeral hnone (Numeral.ofText?_eq_some_iff.2 hn)]
    exact n.rounded_toDouble
  · rw [Number.ofTrimmed?_eq_sifted? hnone]

/-- The numeral `-.0e+05` is converted to a negative zero, and `-.e+05` is none. -/
theorem decimal_texts_converted_signed_zero :
    let text := "-.0e+05"
    text ≠ "" ∧ (∀ c ∈ text.toList.head?, Text.isNumberBlank c = false) ∧
      (∀ c ∈ text.toList.getLast?, Text.isNumberBlank c = false) ∧
      (∀ m ∈ Number.radixMarks, ¬ ['0', m.1] <+: text.toList) ∧
      (∃ x, (Value.string text).toNumber = .ok x ∧ Number.Rounded x true 0 ∧ x = (Binary.zero : Double).neg) ∧
      ∃ x, (Value.string "-.e+05").toNumber = .ok x ∧ x.isNaN = true := by
  intro text
  have hne : text ≠ "" := by decide
  have hblank : ∀ c ∈ text.toList, Text.isNumberBlank c = false := List.all_iff_forall_prop.1 (by decide)
  have hfirst : ∀ c ∈ text.toList.head?, Text.isNumberBlank c = false := fun c hc => hblank c (List.mem_of_mem_head? hc)
  have hlast : ∀ c ∈ text.toList.getLast?, Text.isNumberBlank c = false := fun c hc => hblank c (List.mem_of_getLast? hc)
  have hradix : ∀ m ∈ Number.radixMarks, ¬ ['0', m.1] <+: text.toList := by decide
  obtain ⟨x, hx, -, -, hrounded, hsifted⟩ := decimal_texts_converted hne hfirst hlast hradix
  have hspelled : Numeral.Spelled text.toList ⟨true, 0, 4⟩ := Numeral.ofText?_eq_some_iff.1 (by decide)
  have hzero : Number.Rounded x true (Numeral.magnitude ⟨true, 0, 4⟩) := hrounded _ hspelled
  rw [Numeral.magnitude, Nat.cast_zero, zero_mul] at hzero
  refine ⟨hne, hfirst, hlast, hradix, ⟨x, hx, hzero, ?_⟩, Binary.nan, by decide +kernel, by decide⟩
  rw [hsifted]
  decide +kernel

end Vector128
