/-
How literals are read, form by form.

`Literal.parse` reads the trimmed text by its form, and the elements of a constructor one after the other by itself
(`Literal.parse_eq`). Blanks around a text are trimmed and no more (`Text.trim_append`), and what was put between the
commas is found between them, if it has no commas and is not blank (`Literal.elements_pieces`). So a constructor is read
literal by literal, whatever the literals are (`Literal.parse_constructor`).
-/
import Mathlib.Data.List.TakeWhile
import Mathlib.Tactic
import Vector128.Literal

namespace Vector128

theorem Text.trim_eq_self {skip : Char → Bool} {text : List Char} (hfirst : ∀ c ∈ text.head?, skip c = false)
    (hlast : ∀ c ∈ text.getLast?, skip c = false) : Text.trim skip text = text := by
  have hdrop : ∀ row : List Char, (∀ c ∈ row.head?, skip c = false) → row.dropWhile skip = row := by
    intro row hrow
    cases row with
    | nil => rfl
    | cons c row => rw [List.dropWhile_cons, hrow c rfl, if_neg Bool.false_ne_true]
  rw [← List.head?_reverse] at hlast
  rw [trim, hdrop text hfirst, hdrop text.reverse hlast, List.reverse_reverse]

theorem Text.trim_of_any {skip : Char → Bool} {text : List Char} (h : text.any skip = false) :
    Text.trim skip text = text := by
  have hnone : ∀ c ∈ text, skip c = false := fun c hc => Bool.eq_false_iff.2 (List.any_eq_false.1 h c hc)
  exact trim_eq_self (fun c hc => hnone c (List.mem_of_mem_head? hc)) fun c hc => hnone c (List.mem_of_getLast? hc)

/-- **Blanks on either side are trimmed, and no more.** -/
theorem Text.trim_append {skip : Char → Bool} {before text after : List Char} (hbefore : ∀ c ∈ before, skip c = true)
    (hafter : ∀ c ∈ after, skip c = true) : trim skip (before ++ text ++ after) = trim skip text := by
  have hrest : after.dropWhile skip = [] := List.dropWhile_eq_nil_iff.2 hafter
  rw [trim, trim, List.append_assoc, List.dropWhile_append_of_pos hbefore, List.dropWhile_append, hrest]
  split_ifs with hblank
  · rw [List.isEmpty_iff.1 hblank]
  · rw [List.reverse_append, List.dropWhile_append_of_pos fun c hc => hafter c (List.mem_reverse.1 hc)]

theorem Text.exists_trim (skip : Char → Bool) (text : List Char) : ∃ before after, (∀ c ∈ before, skip c = true) ∧
    (∀ c ∈ after, skip c = true) ∧ text = before ++ trim skip text ++ after := by
  refine ⟨text.takeWhile skip, ((text.dropWhile skip).reverse.takeWhile skip).reverse, ?_, ?_, ?_⟩
  · exact fun c hc => List.mem_takeWhile_imp hc
  · exact fun c hc => List.mem_takeWhile_imp (List.mem_reverse.1 hc)
  · rw [trim, List.append_assoc, ← List.reverse_append, List.takeWhile_append_dropWhile, List.reverse_reverse,
      List.takeWhile_append_dropWhile]

theorem Text.trim_trim (skip : Char → Bool) (text : List Char) : trim skip (trim skip text) = trim skip text := by
  obtain ⟨before, after, hbefore, hafter, htext⟩ := exists_trim skip text
  conv_rhs => rw [htext]
  exact (trim_append hbefore hafter).symm

def Text.Around (inner text : List Char) : Prop :=
  ∃ before after, before.all isBlank = true ∧ after.all isBlank = true ∧ text = before ++ inner ++ after

theorem Text.around_self (text : List Char) : Around text text := ⟨[], [], rfl, rfl, (List.append_nil text).symm⟩

theorem Text.Around.trim {inner text : List Char} (h : Around inner text) : trim isBlank text = trim isBlank inner := by
  obtain ⟨before, after, hbefore, hafter, rfl⟩ := h
  exact trim_append (List.all_eq_true.1 hbefore) (List.all_eq_true.1 hafter)

namespace Literal

variable {text name rest : List Char}

/-! ## Elements -/

theorem splitCommas_eq (text : List Char) : splitCommas text = text.splitOn ',' := by
  induction text with
  | nil => rfl
  | cons c rest ih =>
    rw [List.splitOn, List.splitOnP_cons_eq_if_modifyHead, ← List.splitOn, ← ih]
    by_cases hc : c = ','
    · subst hc
      rfl
    · have hother : splitCommas (c :: rest) = (splitCommas rest).modifyHead (List.cons c) := by
        rw [splitCommas]
        · cases hrest : splitCommas rest with
          | nil => exact absurd (ih.symm.trans hrest) (List.splitOn_ne_nil _ _)
          | cons piece pieces => rfl
        · exact hc
      rw [hother, beq_false_of_ne hc, if_neg Bool.false_ne_true]

/-- a text that is an element of a constructor, with the blanks around it -/
structure Piece (text : List Char) : Prop where
  no_comma : ',' ∉ text
  not_blank : text.all Text.isBlank = false

instance (text : List Char) : Decidable (Piece text) :=
  decidable_of_iff (',' ∉ text ∧ text.all Text.isBlank = false) ⟨fun h => ⟨h.1, h.2⟩, fun h => ⟨h.1, h.2⟩⟩

theorem Piece.trim_ne_nil (h : Piece text) : Text.trim Text.isBlank text ≠ [] := by
  intro hnil
  obtain ⟨before, after, hbefore, hafter, htext⟩ := Text.exists_trim Text.isBlank text
  rw [hnil, List.append_nil] at htext
  have hblank : text.all Text.isBlank = true := by
    rw [htext, List.all_append, Bool.and_eq_true, List.all_eq_true, List.all_eq_true]
    exact ⟨hbefore, hafter⟩
  exact Bool.false_ne_true (h.not_blank.symm.trans hblank)

theorem Piece.around (h : Piece rest) (haround : Text.Around rest text) : Piece text := by
  obtain ⟨before, after, hbefore, hafter, rfl⟩ := haround
  have hcomma : ∀ row : List Char, row.all Text.isBlank = true → ',' ∉ row := by
    intro row hrow hc
    exact absurd (List.all_eq_true.1 hrow _ hc) (by decide)
  refine ⟨?_, ?_⟩
  · simp only [List.mem_append, not_or]
    exact ⟨⟨hcomma before hbefore, h.no_comma⟩, hcomma after hafter⟩
  · rw [List.all_append, List.all_append, h.not_blank, Bool.and_false, Bool.false_and]

theorem piece_of_around {literals pieces : List (List Char)} (h : List.Forall₂ Text.Around literals pieces)
    (hliterals : ∀ l ∈ literals, Piece l) : ∀ piece ∈ pieces, Piece piece := by
  induction h with
  | nil => exact hliterals
  | cons hfirst _ ih =>
    obtain ⟨hl, hrest⟩ := List.forall_mem_cons.1 hliterals
    exact List.forall_mem_cons.2 ⟨hl.around hfirst, ih hrest⟩

/-- **What was put between commas is found between them**, without the blanks around it. -/
theorem elements_pieces {pieces : List (List Char)} (h : ∀ piece ∈ pieces, Piece piece) :
    elements ([','].intercalate pieces) = pieces.map (Text.trim Text.isBlank) := by
  cases pieces with
  | nil => rfl
  | cons first others =>
    rw [elements, splitCommas_eq, List.splitOn_intercalate ',' (fun piece hp => (h piece hp).no_comma)
      (List.cons_ne_nil _ _), List.filter_eq_self]
    intro piece hp
    obtain ⟨whole, hwhole, rfl⟩ := List.mem_map.1 hp
    simpa using (h whole hwhole).trim_ne_nil

/-- a text that is an element as it stands -/
structure Element (text : List Char) : Prop where
  ne_nil : text ≠ []
  no_comma : ',' ∉ text
  no_blank : text.any Text.isBlank = false

theorem Element.piece (h : Element text) : Piece text where
  no_comma := h.no_comma
  not_blank := by
    obtain ⟨c, rest, rfl⟩ := List.exists_cons_of_ne_nil h.ne_nil
    rw [List.all_cons, Bool.eq_false_iff.2 (List.any_eq_false.1 h.no_blank c List.mem_cons_self), Bool.false_and]

def keywords : List String := ["undefined", "null", "true", "false", "\x7b\x7d"]

/-- a text with a character that no keyword has is no keyword -/
theorem ne_keyword_of_mem {c : Char} (hc : c ∈ text) (h : ∀ word ∈ keywords, c ∉ word.toList) :
    ∀ word ∈ keywords, word.toList ≠ text := by
  rintro word hw rfl
  exact h word hw hc

theorem keyword?_eq_none (h : ∀ word ∈ keywords, word.toList ≠ text) :
    keyword? (String.ofList text) = none := by
  have hne : ∀ word ∈ keywords, String.ofList text ≠ word := by
    rintro word hw rfl
    exact h _ hw String.toList_ofList
  simp only [keywords, List.forall_mem_cons] at hne
  rw [keyword?, if_neg hne.1, if_neg hne.2.1, if_neg hne.2.2.1, if_neg hne.2.2.2.1, if_neg hne.2.2.2.2.1]

theorem unquote?_eq_none (h : ∀ c ∈ text.head?, c ≠ '\x22' ∧ c ≠ '\x27') : unquote? text = none := by
  cases text with
  | nil => rfl
  | cons c rest =>
    obtain ⟨hdouble, hsingle⟩ := h c rfl
    rw [unquote?, if_neg]
    exact fun hquoted => hquoted.1.elim hdouble hsingle

theorem formOf_eq_number (hword : ∀ word ∈ keywords, word.toList ≠ text)
    (hquote : ∀ c ∈ text.head?, c ≠ '\x22' ∧ c ≠ '\x27') (hparen : '(' ∉ text) : formOf text = .number := by
  have hdrop : text.dropWhile (· != '(') = [] := by
    rw [List.dropWhile_eq_nil_iff]
    exact fun c hc => bne_iff_ne.2 fun heq => hparen (heq ▸ hc)
  rw [formOf, keyword?_eq_none hword, unquote?_eq_none hquote, hdrop]

/-- the characters that a name may be made of: no other form starts with one, and none is trimmed -/
def isNameChar (c : Char) : Bool := !Text.isBlank c && c != '(' && c != '\x22' && c != '\x27'

theorem isNameChar_iff {c : Char} :
    isNameChar c = true ↔ Text.isBlank c = false ∧ c ≠ '(' ∧ c ≠ '\x22' ∧ c ≠ '\x27' := by
  simp only [isNameChar, Bool.and_eq_true, Bool.not_eq_true', bne_iff_ne, and_assoc]

theorem formOf_eq_constructed (hname : name ≠ [] ∧ name.all isNameChar = true) :
    formOf (name ++ '(' :: rest) = .constructed name rest := by
  have hword : ∀ word ∈ keywords, word.toList ≠ name ++ '(' :: rest :=
    ne_keyword_of_mem (List.mem_append_right _ List.mem_cons_self) (by decide)
  have hchars : ∀ c ∈ name, isNameChar c = true := List.all_eq_true.1 hname.2
  have hquote : ∀ c ∈ (name ++ '(' :: rest).head?, c ≠ '\x22' ∧ c ≠ '\x27' := by
    intro c hc
    rw [List.head?_append_of_ne_nil _ hname.1] at hc
    exact (isNameChar_iff.1 (hchars c (List.mem_of_mem_head? hc))).2.2
  have hparen : ∀ c ∈ name, (c != '(') = true := fun c hc => bne_iff_ne.2 (isNameChar_iff.1 (hchars c hc)).2.1
  rw [formOf, keyword?_eq_none hword, unquote?_eq_none hquote, List.dropWhile_append_of_pos hparen,
    List.takeWhile_append_of_pos hparen]
  simp

/-! ## Reading -/

theorem bind_eq_ok {α β : Type} {m : StateT Store (Except Rejection) α} {f : α → StateT Store (Except Rejection) β}
    {st : Store} {result : β × Store} :
    (m >>= f) st = .ok result ↔ ∃ x st', m st = .ok (x, st') ∧ f x st' = .ok result := by
  show (m st >>= fun p => f p.1 p.2) = .ok result ↔ _
  cases m st with
  | error rejection => simp [bind, Except.bind]
  | ok p => simp [bind, Except.bind, Prod.ext_iff]

theorem parse_eq (text : List Char) : parse text =
    match formOf (Text.trim Text.isBlank text) with
    | .constant value => pure value
    | .object => fun st => .ok (.object st.addObject.1, st.addObject.2)
    | .number =>
      match Number.ofLiteral (Text.trim Text.isBlank text) with
      | .ok x => pure (.number x)
      | .error fault => throw (.noNumber (Text.trim Text.isBlank text) fault)
    | .constructed name rest =>
      if rest.getLast? = some ')' then do
        let values ← (elements rest.dropLast).mapM parse
        construct (Text.trim Text.isBlank text) name values
      else throw (.unclosed (Text.trim Text.isBlank text)) := by
  rw [parse]
  dsimp only
  split
  · rename_i h
    simp only [h]
  · rename_i h
    simp only [h]
  · rename_i h
    cases Number.ofLiteral (Text.trim Text.isBlank text) <;> simp only [h]
  · rename_i h
    simp only [h]
    rw [List.mapM_subtype (fun _ _ => rfl), List.unattach_attach]

theorem parse_number {x : Double} (htrim : Text.trim Text.isBlank text = text) (hform : formOf text = .number)
    (hx : Number.ofLiteral text = .ok x) : parse text = pure (.number x) := by
  rw [parse_eq, htrim, hform]
  dsimp only
  rw [hx]

/-- blanks around a text do not matter -/
theorem parse_around {inner : List Char} (h : Text.Around inner text) : parse text = parse inner := by
  rw [parse_eq, parse_eq inner, h.trim]

theorem parse_trim (text : List Char) : parse (Text.trim Text.isBlank text) = parse text := by
  rw [parse_eq, parse_eq text, Text.trim_trim]

theorem mapM_parse_around {literals pieces : List (List Char)} (h : List.Forall₂ Text.Around literals pieces) :
    (pieces.map (Text.trim Text.isBlank)).mapM parse = literals.mapM parse := by
  induction h with
  | nil => rfl
  | cons hfirst _ ih => rw [List.map_cons, List.mapM_cons, List.mapM_cons, ih, parse_trim, parse_around hfirst]

/-- a text that is a constructor: a name, and in parentheses literals with commas between them, with blanks around each
literal and around the whole -/
structure Constructor (name : List Char) (literals : List (List Char)) (text : List Char) : Prop where
  pieces : ∀ l ∈ literals, Piece l
  form : ∃ pieces, List.Forall₂ Text.Around literals pieces ∧
    Text.Around (name ++ '(' :: ([','].intercalate pieces ++ [')'])) text

/-- elements as they stand, without blanks anywhere -/
theorem Constructor.of_elements {literals : List (List Char)} (h : ∀ l ∈ literals, Element l) :
    Constructor name literals (name ++ '(' :: ([','].intercalate literals ++ [')'])) where
  pieces := fun l hl => (h l hl).piece
  form := ⟨literals, List.forall₂_same.2 fun l _ => Text.around_self l, Text.around_self _⟩

/-- **A constructor is read literal by literal**, and then its value is made. -/
theorem parse_constructor {literals : List (List Char)} (hname : name ≠ [] ∧ name.all isNameChar = true)
    (h : Constructor name literals text) :
    parse text = literals.mapM parse >>= construct (Text.trim Text.isBlank text) name := by
  obtain ⟨pieces, haround, htext⟩ := h.form
  have htrim : Text.trim Text.isBlank text = name ++ '(' :: ([','].intercalate pieces ++ [')']) := by
    rw [htext.trim]
    apply Text.trim_eq_self
    · intro c hc
      rw [List.head?_append_of_ne_nil _ hname.1] at hc
      exact (isNameChar_iff.1 (List.all_eq_true.1 hname.2 c (List.mem_of_mem_head? hc))).1
    · intro c hc
      rw [← List.cons_append, ← List.append_assoc, List.getLast?_concat] at hc
      obtain rfl := Option.some.inj hc
      decide
  rw [parse_eq, htrim, formOf_eq_constructed hname]
  dsimp only
  rw [List.getLast?_concat, if_pos rfl, List.dropLast_concat, elements_pieces (piece_of_around haround h.pieces),
    mapM_parse_around haround]

end Literal

end Vector128
