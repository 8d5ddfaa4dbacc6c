/-
Number literals, and the conversion of their texts.

A literal is read as a Number if it is a numeral or a word (`Number.exists_ofLiteral_iff`, `Literal.parse_eq_number_iff`).
A numeral is converted to the Number that the literal is. A word is NaN for scripts unless it is `Infinity`. So a text is
read and converted to the same, unless it is another word for an infinity (`Number.OtherInfinity`), `inf` or `INFINITY` for
one: of those scripts make NaN. `number_literals_converted` is this law.
-/
import Vector128.Proofs.Number.Decimals

namespace Vector128

namespace Number

open Numeral (Spelled)

variable {text : List Char} {n : Numeral} {x : Double}

/-- a word for an infinity, of either sign, other than `Infinity` -/
def OtherInfinity (text : List Char) : Prop :=
  ((splitSign text).2.map Char.toLower = "inf".toList ∨ (splitSign text).2.map Char.toLower = "infinity".toList) ∧
    (splitSign text).2 ≠ "Infinity".toList

instance (text : List Char) : Decidable (OtherInfinity text) := inferInstanceAs (Decidable (_ ∧ _))

theorem ofLiteral_cases (h : ofLiteral text = .ok x) :
    (∃ n, Spelled text n ∧ x = n.toDouble) ∨ named? (splitSign text).1 (splitSign text).2 = some x := by
  rw [ofLiteral] at h
  split_ifs at h with hnil
  cases hn : Numeral.ofText? text with
  | some n =>
    rw [hn] at h
    exact Or.inl ⟨n, Numeral.ofText?_eq_some_iff.1 hn, (Except.ok.inj h).symm⟩
  | none =>
    rw [hn] at h
    dsimp only at h
    cases hx : named? (splitSign text).1 (splitSign text).2 with
    | some y =>
      rw [hx] at h
      exact Or.inr (congrArg some (Except.ok.inj h))
    | none =>
      rw [hx] at h
      cases h

/-- the texts that are literals: a numeral, or a sign or none and a word -/
def IsLiteral (text : List Char) : Prop :=
  (∃ n, Spelled text n) ∨ ∃ name ∈ words, (splitSign text).2.map Char.toLower = name.toList

theorem exists_ofLiteral_iff : (∃ x, ofLiteral text = .ok x) ↔ IsLiteral text := by
  rw [IsLiteral, ← exists_named?_iff (splitSign text).1]
  constructor
  · rintro ⟨x, hx⟩
    refine (ofLiteral_cases hx).imp ?_ fun hword => ⟨x, hword⟩
    rintro ⟨n, hn, -⟩
    exact ⟨n, hn⟩
  · intro h
    have hne : text ≠ [] := by
      rintro rfl
      rcases h with ⟨n, hn⟩ | ⟨x, hx⟩
      · cases Numeral.ofText?_eq_some_iff.2 hn
      · exact (mem_wordLetters hx).1 rfl
    simp only [ofLiteral, if_neg hne]
    rcases h with ⟨n, hn⟩ | ⟨x, hx⟩
    · rw [Numeral.ofText?_eq_some_iff.2 hn]
      exact ⟨n.toDouble, rfl⟩
    · cases Numeral.ofText? text with
      | some n => exact ⟨n.toDouble, rfl⟩
      | none =>
        rw [hx]
        exact ⟨x, rfl⟩

def isLiteralChar (c : Char) : Bool := isNumeralChar c || wordLetters.contains c

theorem isLiteralChar_of_ofLiteral (h : ofLiteral text = .ok x) : ∀ c ∈ text, isLiteralChar c = true := by
  intro c hc
  rw [isLiteralChar, Bool.or_eq_true, List.contains_iff_mem]
  rcases ofLiteral_cases h with ⟨n, hn, -⟩ | hword
  · exact Or.inl (isNumeralChar_of_spelled hn c hc)
  · rcases mem_of_signed (signed_splitSign text) hc with hc | rfl | rfl
    · exact Or.inr ((mem_wordLetters hword).2 c hc)
    · exact Or.inl (by decide)
    · exact Or.inl (by decide)

theorem isNumberBlank_of_isLiteralChar {c : Char} (h : isLiteralChar c = true) : Text.isNumberBlank c = false := by
  rw [isLiteralChar, Bool.or_eq_true, List.contains_iff_mem] at h
  rcases h with hnumeral | hletter
  · rcases isNumeralChar_cases hnumeral with hdigit | hmem
    · simp only [Char.isDigit, Bool.and_eq_true, decide_eq_true_eq, ge_iff_le, UInt32.le_iff_toNat_le] at hdigit
      exact Text.isNumberBlank_eq_false (le_trans (by decide) hdigit.1) (lt_of_le_of_lt hdigit.2 (by decide))
    · have hmarks : ∀ c ∈ ".eE+-".toList, Text.isNumberBlank c = false := List.all_iff_forall_prop.1 (by decide)
      exact hmarks c hmem
  · have hletters : ∀ c ∈ wordLetters, Text.isNumberBlank c = false := List.all_iff_forall_prop.1 (by decide)
    exact hletters c hletter

/-- a literal announces no radix, and nothing is trimmed of it -/
theorem ofText_of_ofLiteral (h : ofLiteral text = .ok x) :
    radixDigits? text = none ∧ ofText text = (ofTrimmed? text).getD Binary.nan := by
  have hne : text ≠ [] := by
    rintro rfl
    cases h
  have hchars := isLiteralChar_of_ofLiteral h
  constructor
  · have hmarks : ∀ m ∈ radixMarks, isLiteralChar m.1 = false := by decide
    refine radixDigits?_eq_none_iff.2 fun m hm hstarts => ?_
    have hmark := hchars m.1 (hstarts.subset (List.mem_cons_of_mem _ List.mem_cons_self))
    exact Bool.eq_false_iff.1 (hmarks m hm) hmark
  · exact ofText_of_not_blank hne (fun c hc => isNumberBlank_of_isLiteralChar (hchars c (List.mem_of_mem_head? hc)))
      fun c hc => isNumberBlank_of_isLiteralChar (hchars c (List.mem_of_getLast? hc))

/-! ## What scripts make of literals -/

theorem not_otherInfinity_of_spelled (h : Spelled text n) : ¬ OtherInfinity text := by
  rintro ⟨hinf, -⟩
  have hsome : named? (splitSign text).1 (splitSign text).2 = some (Binary.infinity (splitSign text).1) := by
    simp only [named?, String.ofList_eq]
    exact if_pos hinf
  exact absurd (hsome.symm.trans (named?_splitSign (isNumeralChar_of_spelled h))) (Option.some_ne_none _)

theorem ofTrimmed?_of_word (hradix : radixDigits? text = none)
    (hword : named? (splitSign text).1 (splitSign text).2 = some x) (hother : (splitSign text).2 ≠ "Infinity".toList) :
    ofTrimmed? text = none := by
  rw [Option.eq_none_iff_forall_ne_some]
  intro y hy
  rcases (ofTrimmed?_eq_some_iff hradix).1 hy with ⟨negative, hsign, -⟩ | ⟨n, hn, -⟩
  · exact hother (congrArg Prod.snd (splitSign_of_infinity hsign))
  · rw [named?_splitSign (isNumeralChar_of_spelled hn)] at hword
    cases hword

/-- **What scripts make of a literal**: NaN of the words for infinities that they do not have, and the same of the others. -/
theorem converted_of_ofLiteral (h : ofLiteral text = .ok x) :
    (OtherInfinity text → (ofText text).isNaN = true ∧ x.isInfinite = true) ∧
      (¬ OtherInfinity text → (ofText text).sameValue x = true) := by
  obtain ⟨hradix, htext⟩ := ofText_of_ofLiteral h
  have hnan : (Binary.nan : Double).isNaN = true := by decide
  rw [htext]
  rcases ofLiteral_cases h with ⟨n, hn, rfl⟩ | hword
  · rw [ofTrimmed?_of_numeral hradix (Numeral.ofText?_eq_some_iff.2 hn)]
    exact ⟨fun hinf => absurd hinf (not_otherInfinity_of_spelled hn), fun _ => Binary.sameValue_refl _⟩
  · by_cases hI : (splitSign text).2 = "Infinity".toList
    · have hsign := signed_splitSign text
      rw [hI] at hsign hword
      rw [ofTrimmed?_of_infinity hradix hsign]
      rcases named?_eq_some hword with ⟨-, rfl⟩ | ⟨hfalse, -⟩
      · exact ⟨fun hinf => absurd hI hinf.2, fun _ => Binary.sameValue_refl _⟩
      · exact absurd hfalse (by decide)
    · rw [ofTrimmed?_of_word hradix hword hI]
      rcases named?_eq_some hword with ⟨hinf, rfl⟩ | ⟨hname, hx⟩
      · exact ⟨fun _ => ⟨hnan, Binary.isInfinite_infinity _⟩, fun hnot => absurd ⟨hinf, hI⟩ hnot⟩
      · refine ⟨fun hinf => ?_, fun _ => ?_⟩
        · rw [OtherInfinity, hname] at hinf
          exact absurd hinf.1 (by decide)
        · rw [Option.getD_none, Binary.sameValue, hnan, hx]
          rfl

end Number

/-! ## Reading -/

namespace Literal

variable {text literal name : List Char} {st st' : Store} {x : Double}

theorem formOf_ne_number (text : List Char) (x : Double) : formOf text ≠ .constant (.number x) := by
  intro h
  unfold formOf at h
  split at h
  · rename_i form hform
    subst h
    unfold keyword? at hform
    split_ifs at hform <;> cases hform
  · split at h
    · cases h
    · split at h <;> cases h

theorem construct_ne_number (elements : List Value) : construct literal name elements st ≠ .ok (.number x, st') := by
  intro h
  unfold construct at h
  split at h
  · split at h <;> cases h
  · split at h
    · split at h <;> cases h
    · cases h

/-- no other form is made of the characters of Numbers -/
theorem formOf_of_ofLiteral (h : Number.ofLiteral text = .ok x) : formOf text = .number := by
  have hchars := Number.isLiteralChar_of_ofLiteral h
  refine formOf_eq_number ?_ ?_ fun hparen => absurd (hchars '(' hparen) (by decide)
  · have hall : ∀ word ∈ keywords, word.toList.all Number.isLiteralChar = false := by decide
    rintro word hword rfl
    exact Bool.eq_false_iff.1 (hall word hword) (List.all_eq_true.2 hchars)
  · intro c hc
    have hchar := hchars c (List.mem_of_mem_head? hc)
    constructor <;> · rintro rfl; exact absurd hchar (by decide)

/-- **Which literals are Numbers**: those whose trimmed text is one. The store is left as it is. -/
theorem parse_eq_number_iff :
    parse text st = .ok (.number x, st') ↔ Number.ofLiteral (Text.trim Text.isBlank text) = .ok x ∧ st' = st := by
  rw [parse_eq]
  generalize Text.trim Text.isBlank text = literal
  constructor
  · intro h
    cases hform : formOf literal with
    | constant value =>
      rw [hform] at h
      obtain ⟨rfl, -⟩ := Prod.mk.inj (Except.ok.inj h)
      exact absurd hform (formOf_ne_number literal x)
    | object =>
      rw [hform] at h
      cases h
    | number =>
      rw [hform] at h
      dsimp only at h
      cases hx : Number.ofLiteral literal with
      | error fault =>
        rw [hx] at h
        cases h
      | ok y =>
        rw [hx] at h
        obtain ⟨hy, hst⟩ := Prod.mk.inj (Except.ok.inj h)
        exact ⟨congrArg Except.ok (Value.number.inj hy), hst.symm⟩
    | constructed name rest =>
      rw [hform] at h
      dsimp only at h
      split_ifs at h
      · obtain ⟨values, st₁, -, h⟩ := bind_eq_ok.1 h
        exact absurd h (construct_ne_number _)
      · cases h
  · rintro ⟨hx, rfl⟩
    rw [formOf_of_ofLiteral hx, hx]
    rfl

end Literal

/-- **Number literals and the conversion of their texts agree**, save for words that only literals have. A text is read as
a Number exactly if it is a numeral or a word between blanks. It is converted to the same Number, as scripts compare them,
exactly if it is no other word for an infinity than `Infinity`. Those words are infinities as literals, and NaN for
scripts. -/
theorem number_literals_converted (text : String) (st : Store) :
    let literal := Text.trim Text.isBlank text.toList
    ((∃ x st', Literal.parse text.toList st = .ok (.number x, st')) ↔ Number.IsLiteral literal) ∧
      ∀ x st', Literal.parse text.toList st = .ok (.number x, st') →
        st' = st ∧ (literal = "NaN".toList → x.isNaN = true) ∧
          ∃ y, (Value.string (String.ofList literal)).toNumber = .ok y ∧
            (Value.sameValueZero st (.number y) (.number x) = true ↔ ¬ Number.OtherInfinity literal) ∧
            (Number.OtherInfinity literal → y.isNaN = true ∧ x.isInfinite = true) := by
  intro literal
  constructor
  · rw [← Number.exists_ofLiteral_iff]
    constructor
    · rintro ⟨x, st', h⟩
      exact ⟨x, (Literal.parse_eq_number_iff.1 h).1⟩
    · rintro ⟨x, hx⟩
      exact ⟨x, st, Literal.parse_eq_number_iff.2 ⟨hx, rfl⟩⟩
  · intro x st' h
    obtain ⟨hx, hst⟩ := Literal.parse_eq_number_iff.1 h
    obtain ⟨hother, hsame⟩ := Number.converted_of_ofLiteral hx
    refine ⟨hst, fun hname => ?_, Number.ofText literal, ?_, ⟨fun hequal hinf => ?_, hsame⟩, hother⟩
    · have hnan : Number.ofLiteral "NaN".toList = .ok Binary.nan := by rfl
      rw [show Text.trim Text.isBlank text.toList = "NaN".toList from hname, hnan] at hx
      obtain rfl := Except.ok.inj hx
      decide
    · rw [Value.toNumber, String.toList_ofList]
    · obtain ⟨hy, hx⟩ := hother hinf
      have hdiffers : (Number.ofText literal).sameValue x = false := by
        rw [Binary.sameValue, Binary.equal, Binary.unordered, hy, Binary.eq_infinity hx, Binary.isNaN_infinity]
        rfl
      exact absurd (hdiffers.symm.trans hequal) Bool.false_ne_true

/-- A literal beyond the range of Numbers, between blanks, is the infinity that its text is converted to; `-INF` is an
infinity as a literal, and its text is converted to NaN. -/
theorem number_literals_converted_infinities :
    (∃ x y, Literal.parse " -1e400\t".toList Store.empty = .ok (.number x, Store.empty) ∧
      (Value.string "-1e400").toNumber = .ok y ∧ Value.sameValueZero Store.empty (.number y) (.number x) = true) ∧
    ∃ x y, Literal.parse "-INF".toList Store.empty = .ok (.number x, Store.empty) ∧
      (Value.string "-INF").toNumber = .ok y ∧ y.isNaN = true ∧ x.isInfinite = true := by
  have hlarge : Literal.parse " -1e400\t".toList Store.empty = .ok (.number (Binary.infinity true), Store.empty) := by
    decide +kernel
  have hword : Literal.parse "-INF".toList Store.empty = .ok (.number (Binary.infinity true), Store.empty) := by
    decide +kernel
  have hlargeText : String.ofList (Text.trim Text.isBlank " -1e400\t".toList) = "-1e400" := by decide
  have hwordText : String.ofList (Text.trim Text.isBlank "-INF".toList) = "-INF" := by decide
  obtain ⟨-, -, y, hy, hsame, -⟩ := (number_literals_converted " -1e400\t" Store.empty).2 _ _ hlarge
  obtain ⟨-, -, z, hz, -, hother⟩ := (number_literals_converted "-INF" Store.empty).2 _ _ hword
  rw [hlargeText] at hy
  rw [hwordText] at hz
  exact ⟨⟨_, y, hlarge, hy, hsame.2 (by decide)⟩, _, z, hword, hz, hother (by decide)⟩

/-- The literal `inf` is a Number, and its text is converted to another one. -/
theorem number_literal_not_converted :
    ∃ x y, Literal.parse "inf".toList Store.empty = .ok (.number x, Store.empty) ∧
      Text.trim Text.isBlank "inf".toList = "inf".toList ∧ "inf" ≠ "NaN" ∧ x.isNaN = false ∧
      (Value.string "inf").toNumber = .ok y ∧ Value.sameValueZero Store.empty (.number y) (.number x) = false := by
  refine ⟨Binary.infinity false, Binary.nan, ?_, by decide, by decide, by decide, by decide +kernel, by decide⟩
  decide +kernel

end Vector128
