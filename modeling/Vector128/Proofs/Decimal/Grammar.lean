/-
The grammar of numerals, and that reading accepts just this grammar.

A numeral is a sign or none, a mantissa, and an exponent or none. A mantissa has digits before the point, behind it, or on
both sides; without a point it is a row of digits. An exponent is a mark, a sign or none, and a row of digits.
`Numeral.Spelled` is this grammar together with what is spelled, and reading finds exactly that
(`Numeral.ofText?_eq_some_iff`). Each part is found because the next one starts with none of its characters.
-/
import Vector128.Proofs.Decimal.Numeral

namespace Vector128

/-- a text with a minus sign, a plus sign or none, and what follows that -/
inductive Signed : Bool → List Char → List Char → Prop
  | bare (body : List Char) : Signed false body body
  | plus (body : List Char) : Signed false ('+' :: body) body
  | minus (body : List Char) : Signed true ('-' :: body) body

theorem signed_splitSign (text : List Char) : Signed (splitSign text).1 text (splitSign text).2 := by
  unfold splitSign
  split
  · exact .minus _
  · exact .plus _
  · exact .bare _

theorem Signed.splitSign_eq {negative : Bool} {text body : List Char} (h : Signed negative text body)
    (hbody : ∀ c ∈ body.head?, c ≠ '-' ∧ c ≠ '+') : splitSign text = (negative, body) := by
  cases h with
  | bare =>
    unfold splitSign
    split
    · exact absurd rfl (hbody '-' rfl).1
    · exact absurd rfl (hbody '+' rfl).2
    · rfl
  | plus => rfl
  | minus => rfl

structure DigitRow (row : List Char) : Prop where
  ne_nil : row ≠ []
  digits : ∀ c ∈ row, c.isDigit = true

theorem isDigit_of_mem_takeWhile {text : List Char} : ∀ c ∈ text.takeWhile Char.isDigit, c.isDigit = true :=
  List.all_eq_true.1 List.all_takeWhile

theorem spanDigits_fst_append_snd (text : List Char) : (spanDigits text).1 ++ (spanDigits text).2 = text :=
  List.takeWhile_append_dropWhile

theorem DigitRow.head_ne {row : List Char} (h : DigitRow row) {c : Char} (hc : c.isDigit = false) (rest : List Char) :
    c ∉ (row ++ rest).head? := by
  rw [List.head?_append_of_ne_nil _ h.ne_nil]
  intro hmem
  rw [h.digits c (List.mem_of_mem_head? hmem)] at hc
  cases hc

theorem spanDigits_of_digits {row : List Char} (h : ∀ c ∈ row, c.isDigit = true) : spanDigits row = (row, []) := by
  have hspan : spanDigits (row ++ []) = (row, []) := spanDigits_append h nofun
  rwa [List.append_nil] at hspan

namespace Numeral

/-- the exponent part of a numeral, and the exponent -/
inductive ExponentPart : List Char → Int → Prop
  | missing : ExponentPart [] 0
  | marked {mark : Char} {negative : Bool} {text digits : List Char} (hmark : mark = 'e' ∨ mark = 'E')
      (hsign : Signed negative text digits) (hdigits : DigitRow digits) :
      ExponentPart (mark :: text) (if negative then -(natOfDigits digits : Int) else natOfDigits digits)

theorem ExponentPart.isDigit_head {text : List Char} {e : Int} (h : ExponentPart text e) :
    ∀ c ∈ text.head?, c.isDigit = false ∧ c ≠ '.' := by
  cases h with
  | missing => nofun
  | marked hmark =>
    rintro c ⟨⟩
    rcases hmark with rfl | rfl <;> decide

theorem exponentOf?_cons (mark : Char) (rest : List Char) : exponentOf? (mark :: rest) =
    if (mark = 'e' ∨ mark = 'E') ∧ (spanDigits (splitSign rest).2).1 ≠ [] ∧ (spanDigits (splitSign rest).2).2 = [] then
      some (if (splitSign rest).1 then -(natOfDigits (spanDigits (splitSign rest).2).1 : Int)
        else natOfDigits (spanDigits (splitSign rest).2).1)
    else none := rfl

theorem exponentOf?_eq_some_iff {text : List Char} {e : Int} : exponentOf? text = some e ↔ ExponentPart text e := by
  constructor
  · intro h
    cases text with
    | nil =>
      obtain rfl := Option.some.inj h
      exact .missing
    | cons mark rest =>
      rw [exponentOf?_cons] at h
      obtain ⟨⟨hmark, hne, hrest⟩, heq⟩ := Option.ite_none_right_eq_some.1 h
      obtain rfl := Option.some.inj heq
      have hrow := spanDigits_fst_append_snd (splitSign rest).2
      rw [hrest, List.append_nil] at hrow
      have hdigits : DigitRow (spanDigits (splitSign rest).2).1 := ⟨hne, isDigit_of_mem_takeWhile⟩
      rw [hrow] at hdigits ⊢
      exact .marked hmark (signed_splitSign rest) hdigits
  · intro h
    cases h with
    | missing => rfl
    | @marked mark negative text digits hmark hsign hdigits =>
      have hsplit : splitSign text = (negative, digits) := by
        refine hsign.splitSign_eq fun c hc => ?_
        have hdigit : c.isDigit = true := hdigits.digits c (List.mem_of_mem_head? hc)
        constructor <;> · rintro rfl; cases hdigit
      rw [exponentOf?_cons, hsplit, spanDigits_of_digits hdigits.digits, if_pos ⟨hmark, hdigits.ne_nil, rfl⟩]

/-! ## Mantissas -/

/-- digits with at most one point: the text, the digits before the point, and those behind it -/
inductive Mantissa : List Char → List Char → List Char → Prop
  | whole {digits : List Char} (h : DigitRow digits) : Mantissa digits digits []
  | point {digits fraction : List Char} (h : DigitRow digits) (hfraction : ∀ c ∈ fraction, c.isDigit = true) :
      Mantissa (digits ++ '.' :: fraction) digits fraction
  | fraction {fraction : List Char} (h : DigitRow fraction) : Mantissa ('.' :: fraction) [] fraction

variable {text mantissa whole fraction rest : List Char}

theorem Mantissa.digits_ne_nil (h : Mantissa mantissa whole fraction) : ¬ (whole = [] ∧ fraction = []) := by
  cases h with
  | whole h => exact fun hnil => h.ne_nil hnil.1
  | point h => exact fun hnil => h.ne_nil hnil.1
  | fraction h => exact fun hnil => h.ne_nil hnil.2

/-- a mantissa starts with a digit or a point -/
theorem Mantissa.head_ne (h : Mantissa mantissa whole fraction) {c : Char} (hc : c.isDigit = false) (hpoint : c ≠ '.')
    (rest : List Char) : c ∉ (mantissa ++ rest).head? := by
  cases h with
  | whole h => exact h.head_ne hc rest
  | point h =>
    rw [List.append_assoc]
    exact h.head_ne hc _
  | fraction =>
    rintro ⟨⟩
    exact hpoint rfl

theorem spanFraction_of_head (h : ∀ c ∈ rest.head?, c ≠ '.') : spanFraction rest = ([], rest) := by
  unfold spanFraction
  split
  · exact absurd rfl (h '.' rfl)
  · rfl

/-- the digits of a mantissa are taken, if neither a digit nor a point follows -/
theorem Mantissa.span_eq (h : Mantissa mantissa whole fraction)
    (hrest : ∀ c ∈ rest.head?, c.isDigit = false ∧ c ≠ '.') :
    (spanDigits (mantissa ++ rest)).1 = whole ∧
      spanFraction (spanDigits (mantissa ++ rest)).2 = (fraction, rest) := by
  have hdigit : ∀ c ∈ rest.head?, c.isDigit = false := fun c hc => (hrest c hc).1
  cases h with
  | whole h =>
    rw [spanDigits_append h.digits hdigit]
    exact ⟨rfl, spanFraction_of_head fun c hc => (hrest c hc).2⟩
  | point h hfraction =>
    rw [List.append_assoc, spanDigits_append h.digits (by rintro c ⟨⟩; rfl)]
    exact ⟨rfl, spanDigits_append hfraction hdigit⟩
  | fraction h => exact ⟨rfl, spanDigits_append h.digits hdigit⟩

/-- what is taken from a text was a mantissa, if there was a digit -/
theorem exists_mantissa (text : List Char)
    (hne : ¬ ((spanDigits text).1 = [] ∧ (spanFraction (spanDigits text).2).1 = [])) :
    ∃ mantissa, text = mantissa ++ (spanFraction (spanDigits text).2).2 ∧
      Mantissa mantissa (spanDigits text).1 (spanFraction (spanDigits text).2).1 := by
  have hsplit := spanDigits_fst_append_snd text
  have hwhole : ∀ c ∈ (spanDigits text).1, c.isDigit = true := isDigit_of_mem_takeWhile
  generalize (spanDigits text).1 = whole at hsplit hwhole hne ⊢
  generalize (spanDigits text).2 = rest at hsplit hne ⊢
  subst hsplit
  unfold spanFraction at hne ⊢
  split at hne
  · rename_i behind
    have hfraction : ∀ c ∈ behind.takeWhile Char.isDigit, c.isDigit = true := isDigit_of_mem_takeWhile
    refine ⟨whole ++ '.' :: behind.takeWhile Char.isDigit, ?_, ?_⟩
    · rw [List.append_assoc, List.cons_append]
      exact congrArg (fun row => whole ++ '.' :: row) (spanDigits_fst_append_snd behind).symm
    · by_cases hnil : whole = []
      · subst hnil
        exact .fraction ⟨fun hempty => hne ⟨rfl, hempty⟩, hfraction⟩
      · exact .point ⟨hnil, hwhole⟩ hfraction
  · exact ⟨whole, rfl, .whole ⟨fun hempty => hne ⟨hempty, rfl⟩, hwhole⟩⟩

/-! ## Numerals -/

/-- a text that is a numeral, and the numeral that it is -/
inductive Spelled : List Char → Numeral → Prop
  | parts {negative : Bool} {text mantissa part whole fraction : List Char} {e : Int}
      (hsign : Signed negative text (mantissa ++ part)) (hmantissa : Mantissa mantissa whole fraction)
      (hexponent : ExponentPart part e) :
      Spelled text ⟨negative, natOfDigits (whole ++ fraction), e - fraction.length⟩

/-- **The texts that are read are the numerals**, and each is read as what it spells. -/
theorem ofText?_eq_some_iff {n : Numeral} : ofText? text = some n ↔ Spelled text n := by
  constructor
  · intro h
    simp only [ofText?] at h
    split_ifs at h with hne
    obtain ⟨e, he, rfl⟩ := Option.map_eq_some_iff.1 h
    obtain ⟨mantissa, htext, hmantissa⟩ := exists_mantissa _ hne
    have hsign := signed_splitSign text
    rw [htext] at hsign
    exact .parts hsign hmantissa (exponentOf?_eq_some_iff.1 he)
  · intro h
    cases h with
    | @parts negative text mantissa part whole fraction e hsign hmantissa hexponent =>
      have hsplit : splitSign text = (negative, mantissa ++ part) := by
        refine hsign.splitSign_eq fun c hc => ⟨?_, ?_⟩
        · rintro rfl
          exact hmantissa.head_ne rfl (by decide) part hc
        · rintro rfl
          exact hmantissa.head_ne rfl (by decide) part hc
      obtain ⟨hwhole, hfraction⟩ := hmantissa.span_eq hexponent.isDigit_head
      simp only [ofText?, hsplit, hwhole, hfraction]
      rw [if_neg hmantissa.digits_ne_nil, exponentOf?_eq_some_iff.2 hexponent]
      rfl

end Numeral

end Vector128
