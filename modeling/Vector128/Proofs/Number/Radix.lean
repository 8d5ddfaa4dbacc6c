/-
Texts of integers in radix 16, 8 and 2.

Their digits are taken in one at a time, and the Number is rounded after each of them. Below `2 ^ 53` every integer is a
Number. The digit that leads there or beyond is rounded in, and from then on a digit is less than half the distance
between two Numbers, so that it moves the others to the left and is lost itself (`pushDigit_ofNat`). What is read is thus
rounded once, but from another integer: the one whose digits after that point are zeros (`kept`).

`Number.rounded_kept_iff` says when this is the Number nearest to the integer that is written. It is not, exactly if the
digits that were kept are half way to the next greater Number, and those that were lost are not all zeros.
-/
import Mathlib.Data.Bool.AllAny
import Vector128.Proofs.Binary.Scaling
import Vector128.Proofs.Number.RoundTrip
import Vector128.Proofs.Number.Rounded

namespace Vector128

namespace Text

variable {skip : Char → Bool}

theorem isNumberBlank_eq_false {c : Char} (hlow : 0x21 ≤ c.toNat) (hhigh : c.toNat < 0x80) :
    isNumberBlank c = false := by
  have hblank : isBlank c = false := by
    rw [isBlank, List.any_eq_false]
    simp only [blankRanges, List.forall_mem_cons, Bool.and_eq_true, decide_eq_true_eq, not_and, not_le]
    refine ⟨?_, ?_, ?_, ?_, ?_, ?_, ?_, ?_, ?_, ?_, fun _ hmem => absurd hmem List.not_mem_nil⟩ <;> omega
  rw [isNumberBlank, hblank, Bool.false_or, beq_eq_false_iff_ne]
  omega

def trimEnd (skip : Char → Bool) (text : List Char) : List Char := (text.reverse.dropWhile skip).reverse

theorem trimEnd_eq_self {text : List Char} (h : ∀ c ∈ text, skip c = false) : trimEnd skip text = text := by
  have hdrop : text.reverse.dropWhile skip = text.reverse := by
    rw [List.dropWhile_eq_self_iff]
    intro hlength
    exact Bool.eq_false_iff.1 (h _ (List.mem_reverse.1 (List.getElem_mem hlength)))
  rw [trimEnd, hdrop, List.reverse_reverse]

/-- characters outside the class protect the front of a text -/
theorem trim_append_of_none {front : List Char} (hne : front ≠ []) (h : ∀ c ∈ front, skip c = false)
    (text : List Char) : trim skip (front ++ text) = front ++ trimEnd skip text := by
  obtain ⟨c, rest, rfl⟩ := List.exists_cons_of_ne_nil hne
  have hfront : (c :: rest).reverse.dropWhile skip = (c :: rest).reverse := by
    have hself := trimEnd_eq_self h
    rwa [trimEnd, List.reverse_eq_iff] at hself
  have hfirst : (c :: rest ++ text).dropWhile skip = c :: rest ++ text := by
    rw [List.cons_append, List.dropWhile_cons, h c List.mem_cons_self, if_neg Bool.false_ne_true]
  rw [trim, hfirst, List.reverse_append, List.dropWhile_append, hfront]
  split_ifs with hnone
  · rw [trimEnd, List.isEmpty_iff.1 hnone, List.reverse_reverse]
    simp
  · rw [List.reverse_append, List.reverse_reverse, trimEnd]

end Text

/-! ## Digits -/

namespace Number

open Binary (ofNat)

/-- the letters that announce a radix after a zero -/
def radixMarks : List (Char × Nat) := [('x', 16), ('X', 16), ('o', 8), ('O', 8), ('b', 2), ('B', 2)]

theorem radixDigits?_of_mark {mark : Char} {radix : Nat} (h : (mark, radix) ∈ radixMarks) (digits : List Char) :
    radixDigits? ('0' :: mark :: digits) = some (radix, digits) := by
  simp only [radixMarks, List.mem_cons, Prod.mk.injEq, List.not_mem_nil, or_false] at h
  rcases h with ⟨rfl, rfl⟩ | ⟨rfl, rfl⟩ | ⟨rfl, rfl⟩ | ⟨rfl, rfl⟩ | ⟨rfl, rfl⟩ | ⟨rfl, rfl⟩ <;> rfl

/-- each radix is a power of two, and its mark is no blank -/
theorem exists_bits {mark : Char} {radix : Nat} (h : (mark, radix) ∈ radixMarks) :
    (∃ k < 5, radix = 2 ^ k) ∧ Text.isNumberBlank mark = false := by
  have hall : ∀ m ∈ radixMarks, (∃ k < 5, m.2 = 2 ^ k) ∧ Text.isNumberBlank m.1 = false := by decide
  exact hall _ h

variable {radix k n d : Nat} {digits : List Char} {ds : List Nat}

theorem digitValue?_lt {c : Char} (h : digitValue? radix c = some d) : d < radix := by
  obtain ⟨-, hlt⟩ := Option.filter_eq_some_iff.1 h
  exact of_decide_eq_true hlt

theorem not_isNumberBlank_of_digitValue? {c : Char} (h : digitValue? radix c = some d) :
    Text.isNumberBlank c = false := by
  have hrange : '0'.toNat ≤ c.toNat ∧ c.toNat ≤ 'z'.toNat := by
    obtain ⟨hvalue, -⟩ := Option.filter_eq_some_iff.1 h
    simp only [Char.le_def, UInt32.le_iff_toNat_le] at hvalue
    split_ifs at hvalue with hdigit hlower hupper
    · exact ⟨hdigit.1, hdigit.2.trans (by decide)⟩
    · exact ⟨le_trans (by decide) hlower.1, hlower.2⟩
    · exact ⟨le_trans (by decide) hupper.1, hupper.2.trans (by decide)⟩
  exact Text.isNumberBlank_eq_false (le_trans (by decide) hrange.1) (lt_of_le_of_lt hrange.2 (by decide))

/-- a row of characters that are all digits, or one of them is not -/
theorem mapM_digitValue?_eq_none_iff :
    digits.mapM (digitValue? radix) = none ↔ ∃ c ∈ digits, digitValue? radix c = none := by
  induction digits with
  | nil => simp
  | cons c rest ih =>
    rw [List.mapM_cons, List.exists_mem_cons_iff, ← ih]
    cases digitValue? radix c <;> cases rest.mapM (digitValue? radix) <;> simp

theorem lt_of_mapM (h : digits.mapM (digitValue? radix) = some ds) : ∀ d ∈ ds, d < radix := by
  induction digits generalizing ds with
  | nil =>
    obtain rfl := Option.some.inj h
    nofun
  | cons c rest ih =>
    rw [List.mapM_cons] at h
    obtain ⟨d, hd, h⟩ := Option.bind_eq_some_iff.1 h
    obtain ⟨others, hothers, h⟩ := Option.bind_eq_some_iff.1 h
    obtain rfl := Option.some.inj h
    exact List.forall_mem_cons.2 ⟨digitValue?_lt hd, ih hothers⟩

/-- The integer after one more digit, as far as it is kept: from `2 ^ 53` on a digit counts as a zero. -/
def keepDigit (radix n digit : Nat) : Nat := if n < 2 ^ 53 then n * radix + digit else n * radix

/-- the integer that a row of digits is rounded from -/
def kept (radix : Nat) (ds : List Nat) : Nat := ds.foldl (keepDigit radix) 0

/-- **A digit is rounded in, or lost.** -/
theorem pushDigit_ofNat (hk : k < 5) (hd : d < 2 ^ k) :
    pushDigit (2 ^ k) (ofNat n) d = ofNat (keepDigit (2 ^ k) n d) := by
  have hpow : 2 ^ k < 2 ^ 53 := Nat.pow_lt_pow_right (by decide) (hk.trans (by decide))
  have hone : 2 ^ k * Format.double.one < Format.double.finiteUnits := Format.mul_one_lt hpow (by decide)
  have hdigit := denotes_ofNat (hd.trans hpow)
  have hdunits : (ofNat d : Double).units = (d * Format.double.one : Nat) := by rw [hdigit.units, Nat.cast_mul]
  rw [pushDigit, keepDigit]
  split_ifs with hn
  · have hproduct := denotes_mul_pow hn (hk.trans (by decide))
    have hsign : ((ofNat n : Double).mul (ofNat (2 ^ k))).negative = false := by
      rw [Binary.mul_of_isFinite (denotes_ofNat hn).finite (denotes_ofNat hpow).finite]
      rw [Binary.negative_ofNat, Binary.negative_ofNat]
      rfl
    rw [Binary.add_of_nonneg hproduct.finite hdigit.finite hsign (Binary.negative_ofNat d), hproduct.units, hdunits,
      ← Nat.cast_mul, Int.natAbs_natCast, Int.natAbs_natCast, ← Nat.add_mul, ← Binary.ofNat_eq]
  · have hlarge : 2 * Format.double.binade ≤ n := not_lt.1 hn
    rw [Binary.mul_ofNat_two_pow (by decide) hlarge hpow hone]
    exact Binary.add_ofNat_of_large (by decide) (Nat.mul_le_mul_right _ hlarge) hd hdigit.finite hdunits

theorem foldl_pushDigit (hk : k < 5) (hds : ∀ d ∈ ds, d < 2 ^ k) (n : Nat) :
    ds.foldl (pushDigit (2 ^ k)) (ofNat n) = ofNat (ds.foldl (keepDigit (2 ^ k)) n) := by
  induction ds generalizing n with
  | nil => rfl
  | cons d rest ih =>
    rw [List.forall_mem_cons] at hds
    rw [List.foldl_cons, List.foldl_cons, pushDigit_ofNat hk hds.1, ih hds.2]

theorem foldlM_digits (x : Double) : digits.foldlM (fun n c => (digitValue? radix c).map (pushDigit radix n)) x =
    (digits.mapM (digitValue? radix)).map fun ds => ds.foldl (pushDigit radix) x := by
  induction digits generalizing x with
  | nil => rfl
  | cons c rest ih =>
    rw [List.foldlM_cons, List.mapM_cons]
    cases digitValue? radix c with
    | none => rfl
    | some d =>
      refine (ih (pushDigit radix x d)).trans ?_
      cases rest.mapM (digitValue? radix) <;> rfl

/-- **What is read** of a row of digits is the integer that is kept, rounded once. -/
theorem ofRadixDigits?_eq (hk : k < 5) (hne : digits ≠ []) :
    ofRadixDigits? (2 ^ k) digits = (digits.mapM (digitValue? (2 ^ k))).map fun ds => ofNat (kept (2 ^ k) ds) := by
  rw [ofRadixDigits?, if_neg hne, foldlM_digits]
  cases hds : digits.mapM (digitValue? (2 ^ k)) with
  | none => rfl
  | some ds =>
    have hzero : (Binary.zero : Double) = ofNat 0 := (Binary.ofInt_zero _).symm
    rw [Option.map_some, Option.map_some, hzero, foldl_pushDigit hk (lt_of_mapM hds)]
    rfl

/-! ## What is lost -/

/-- the integer that a row of digits writes -/
def written (radix : Nat) (ds : List Nat) : Nat := Nat.ofDigits radix ds.reverse

theorem written_concat (radix : Nat) (ds : List Nat) (d : Nat) :
    written radix (ds ++ [d]) = written radix ds * radix + d := by
  rw [written, List.reverse_concat, Nat.ofDigits_cons, Nat.add_comm, Nat.mul_comm]
  rfl

theorem kept_concat (radix : Nat) (ds : List Nat) (d : Nat) :
    kept radix (ds ++ [d]) = keepDigit radix (kept radix ds) d := by
  rw [kept, List.foldl_concat]
  rfl

/-- What is kept of an integer: all of it, or a multiple of a power of the radix and less than that is lost. -/
theorem kept_spec (hds : ∀ d ∈ ds, d < radix) : kept radix ds ≤ written radix ds ∧
    (kept radix ds = written radix ds ∨ ∃ i, radix ^ i ∣ kept radix ds ∧ 2 ^ 53 * radix ^ i ≤ kept radix ds ∧
      written radix ds < kept radix ds + radix ^ i) := by
  induction ds using List.reverseRecOn with
  | nil => exact ⟨le_rfl, Or.inl rfl⟩
  | append_singleton ds d ih =>
    rw [List.forall_mem_append] at hds
    have hd : d < radix := hds.2 d (List.mem_singleton_self d)
    obtain ⟨hle, hcases⟩ := ih hds.1
    rw [kept_concat, written_concat, keepDigit]
    have hmul : kept radix ds * radix ≤ written radix ds * radix := Nat.mul_le_mul_right _ hle
    split_ifs with hsmall
    · -- so little is kept only if nothing was lost before
      have hall : kept radix ds = written radix ds := by
        refine hcases.resolve_right ?_
        rintro ⟨i, -, hlarge, -⟩
        have hpos : 0 < radix ^ i := Nat.pow_pos (by omega)
        have := Nat.mul_le_mul_left (2 ^ 53) hpos
        omega
      rw [hall]
      exact ⟨le_rfl, Or.inl rfl⟩
    · refine ⟨by omega, Or.inr ?_⟩
      rcases hcases with hall | ⟨i, hdvd, hlarge, hlost⟩
      · -- the first digit that is lost
        refine ⟨1, ?_, ?_, ?_⟩
        · rw [pow_one]
          exact Nat.dvd_mul_left _ _
        · rw [pow_one]
          exact Nat.mul_le_mul_right _ (not_lt.1 hsmall)
        · rw [pow_one, hall]
          omega
      · refine ⟨i + 1, ?_, ?_, ?_⟩
        · exact Nat.mul_dvd_mul_right hdvd radix
        · rw [pow_succ radix, ← Nat.mul_assoc]
          exact Nat.mul_le_mul_right _ hlarge
        · have hnext := Nat.mul_le_mul_right radix (Nat.succ_le_of_lt hlost)
          rw [Nat.succ_mul, Nat.add_mul] at hnext
          rw [pow_succ]
          omega

theorem kept_of_lt (hds : ∀ d ∈ ds, d < radix) (hsmall : written radix ds < 2 ^ 53) :
    kept radix ds = written radix ds := by
  obtain ⟨hle, hcases⟩ := kept_spec hds
  refine hcases.resolve_right ?_
  rintro ⟨i, -, hlarge, hlost⟩
  rcases Nat.eq_zero_or_pos (radix ^ i) with hzero | hpos
  · omega
  · have := Nat.mul_le_mul_left (2 ^ 53) hpos
    omega

end Number

/-- the middle between a value without a minus sign and the next greater one -/
def Binary.middleAbove {f : Format} (x : Binary f) : ℚ :=
  ((f.unitsOf x.code.toNat + f.unitsOf (x.code.toNat + 1) : Nat) : ℚ) / (2 * f.one)

namespace Number

open Binary (ofNat)

variable {k n m : Nat} {ds : List Nat}

theorem ofNat_eq_iff : (ofNat m : Double) = ofNat n ↔
    Format.double.codeOf (n * Format.double.one) 1 = Format.double.codeOf (m * Format.double.one) 1 := by
  constructor
  · intro h
    rw [← Binary.toNat_code_ofNat, ← Binary.toNat_code_ofNat, h]
  · intro h
    rw [Binary.ofNat_eq, Binary.ofNat_eq, Binary.ofUnits, Binary.ofUnits, h]

theorem rounded_ofNat_iff : Rounded (ofNat m) false n ↔ (ofNat m : Double) = ofNat n := by
  constructor
  · intro h
    exact h.unique (rounded_ofNat n)
  · intro h
    rw [h]
    exact rounded_ofNat n

theorem eq_middleAbove_iff : (m : ℚ) = (ofNat m : Double).middleAbove ↔ 2 * (m * Format.double.one) =
    Format.double.unitsOf (Format.double.codeOf (m * Format.double.one) 1) +
      Format.double.unitsOf (Format.double.codeOf (m * Format.double.one) 1 + 1) := by
  have hpos : (0 : ℚ) < 2 * Format.double.one := mul_pos two_pos (Binary.one_cast_pos _)
  rw [Binary.middleAbove, Binary.toNat_code_ofNat, eq_div_iff hpos.ne', mul_left_comm]
  exact_mod_cast Iff.rfl

/-- **Rounding after each digit gives the nearest Number, unless what is kept is half way** to the next greater one and
something is lost. -/
theorem rounded_kept_iff (hds : ∀ d ∈ ds, d < 2 ^ k) :
    Rounded (ofNat (kept (2 ^ k) ds)) false (written (2 ^ k) ds) ↔
      ¬ ((ofNat (kept (2 ^ k) ds) : Double).isFinite = true ∧
        (kept (2 ^ k) ds : ℚ) = (ofNat (kept (2 ^ k) ds) : Double).middleAbove ∧
        kept (2 ^ k) ds < written (2 ^ k) ds) := by
  obtain ⟨hle, hall | ⟨i, hdvd, hlarge, hlost⟩⟩ := kept_spec hds
  · rw [rounded_ofNat_iff, hall]
    exact iff_of_true rfl fun hmore => absurd hmore.2.2 (lt_irrefl _)
  · rw [rounded_ofNat_iff, ofNat_eq_iff, Binary.isFinite, Binary.toNat_code_ofNat, decide_eq_true_iff,
      eq_middleAbove_iff]
    have hone := Binary.one_pos Format.double
    have hstep : 2 ^ (k * i + Format.double.scale) = (2 ^ k) ^ i * Format.double.one := by
      rw [pow_add, pow_mul, Format.one_eq]
    rw [Format.codeOf_eq_iff_of_coarse (j := k * i + Format.double.scale) (by decide) (by decide) ?_ ?_ ?_ ?_ rfl,
      Nat.mul_lt_mul_right hone]
    · rw [hstep]
      exact Nat.mul_dvd_mul_right hdvd _
    · rw [hstep, ← Nat.mul_assoc]
      exact Nat.mul_le_mul_right _ hlarge
    · exact Nat.mul_le_mul_right _ hle
    · rw [hstep, ← Nat.add_mul]
      exact Nat.mul_lt_mul_of_pos_right hlost hone

/-! ## Texts that announce a radix -/

variable {mark : Char} {radix : Nat} {digits : List Char} {x : Double}

theorem ofText_of_mark (hmark : (mark, radix) ∈ radixMarks) (digits : List Char) :
    ofText ('0' :: mark :: digits) =
      (ofRadixDigits? radix (Text.trimEnd Text.isNumberBlank digits)).getD Binary.nan := by
  have hfront : ∀ c ∈ ['0', mark], Text.isNumberBlank c = false :=
    List.forall_mem_cons.2 ⟨by decide, List.forall_mem_singleton.2 (exists_bits hmark).2⟩
  have htrim : Text.trim Text.isNumberBlank ('0' :: mark :: digits) =
      '0' :: mark :: Text.trimEnd Text.isNumberBlank digits := Text.trim_append_of_none (List.cons_ne_nil _ _) hfront digits
  rw [ofText, htrim, if_neg (List.cons_ne_nil _ _), ofTrimmed?, radixDigits?_of_mark hmark]

/-- What a row of digits is read as: the nearest Number to the integer that is kept, which is the integer itself below
`2 ^ 53`. It is the nearest to the integer itself too, unless what is kept is half way to the next greater Number and
something is lost. -/
structure ReadInRadix (radix : Nat) (ds : List Nat) (x : Double) : Prop where
  rounded : Rounded x false (kept radix ds)
  exact : written radix ds < 2 ^ 53 → x.Denotes (written radix ds)
  nearest_iff : Rounded x false (written radix ds) ↔
    ¬ (x.isFinite = true ∧ (kept radix ds : ℚ) = x.middleAbove ∧ kept radix ds < written radix ds)

theorem readInRadix_kept {k : Nat} {ds : List Nat} (hds : ∀ d ∈ ds, d < 2 ^ k) :
    ReadInRadix (2 ^ k) ds (ofNat (kept (2 ^ k) ds)) where
  rounded := rounded_ofNat _
  exact := by
    intro hsmall
    rw [kept_of_lt hds hsmall]
    exact denotes_ofNat hsmall
  nearest_iff := rounded_kept_iff hds

theorem ofRadixDigits?_cases (hmark : (mark, radix) ∈ radixMarks) (digits : List Char) :
    (((ofRadixDigits? radix digits).getD Binary.nan).isNaN = true ↔
      digits = [] ∨ ∃ c ∈ digits, digitValue? radix c = none) ∧
    ∀ ds, digits ≠ [] → digits.mapM (digitValue? radix) = some ds →
      ReadInRadix radix ds ((ofRadixDigits? radix digits).getD Binary.nan) := by
  obtain ⟨⟨k, hk, rfl⟩, -⟩ := exists_bits hmark
  have hnan : (Binary.nan : Double).isNaN = true := by decide
  by_cases hne : digits = []
  · rw [ofRadixDigits?, if_pos hne]
    exact ⟨iff_of_true hnan (Or.inl hne), fun ds hne' => absurd hne hne'⟩
  · rw [ofRadixDigits?_eq hk hne, ← mapM_digitValue?_eq_none_iff]
    cases hds : digits.mapM (digitValue? (2 ^ k)) with
    | none => exact ⟨iff_of_true hnan (Or.inr rfl), nofun⟩
    | some ds =>
      refine ⟨iff_of_false (Bool.eq_false_iff.1 (Binary.isNaN_ofNat _)) ?_, ?_⟩
      · rintro (hnil | hnone)
        · exact hne hnil
        · cases hnone
      · rintro ds' - heq
        obtain rfl := Option.some.inj heq
        exact readInRadix_kept (lt_of_mapM hds)

end Number

/-- **Integers in radix 16, 8 and 2 are rounded once, after what is kept of them.** After a zero and a mark stands a row of
characters, from whose end blanks are taken off. If it is empty or has a character that is no digit of the radix, the text
is NaN. Any other row is read as the nearest Number to what is kept of its integer. -/
theorem radix_texts_converted {mark : Char} {radix : Nat} (hmark : (mark, radix) ∈ Number.radixMarks)
    (digits : List Char) :
    let row := Text.trimEnd Text.isNumberBlank digits
    ((∀ c ∈ digits, digitValue? radix c ≠ none) → row = digits) ∧
    ∃ x, (Value.string (String.ofList ('0' :: mark :: digits))).toNumber = .ok x ∧
      (x.isNaN = true ↔ row = [] ∨ ∃ c ∈ row, digitValue? radix c = none) ∧
      ∀ ds, row ≠ [] → row.mapM (digitValue? radix) = some ds → Number.ReadInRadix radix ds x := by
  intro row
  refine ⟨?_, _, ?_, Number.ofRadixDigits?_cases hmark row⟩
  · intro hall
    refine Text.trimEnd_eq_self fun c hc => ?_
    obtain ⟨d, hd⟩ := Option.ne_none_iff_exists'.1 (hall c hc)
    exact Number.not_isNumberBlank_of_digitValue? hd
  · rw [Value.toNumber, String.toList_ofList, Number.ofText_of_mark hmark]

/-- Of `2 ^ 57 + 17` in radix 16 the last digit is lost, and what is kept is half way between two Numbers. -/
theorem radix_texts_converted_half :
    let digits := "200000000000011".toList
    let ds := [2, 0, 0, 0, 0, 0, 0, 0, 0, 0, 0, 0, 0, 1, 1]
    ('x', 16) ∈ Number.radixMarks ∧ digits.mapM (digitValue? 16) = some ds ∧ Number.written 16 ds = 2 ^ 57 + 17 ∧
      Number.kept 16 ds = 2 ^ 57 + 16 ∧
      ∃ x, (Value.string "0x200000000000011").toNumber = .ok x ∧ Number.Rounded x false (2 ^ 57 + 16 : Nat) ∧
        ¬ Number.Rounded x false (2 ^ 57 + 17 : Nat) := by
  intro digits ds
  have hmark : ('x', 16) ∈ Number.radixMarks := by decide
  have hdigits : digits.mapM (digitValue? 16) = some ds := by decide
  have hwritten : Number.written 16 ds = 2 ^ 57 + 17 := by decide
  have hkept : Number.kept 16 ds = 2 ^ 57 + 16 := by decide
  obtain ⟨hrow, x, hx, -, hread⟩ := radix_texts_converted hmark digits
  have hself : Text.trimEnd Text.isNumberBlank digits = digits := hrow (List.all_iff_forall_prop.1 (by decide))
  rw [hself] at hread
  have hds := hread ds (by decide) hdigits
  have hrounded := hds.rounded
  rw [hkept] at hrounded
  refine ⟨hmark, hdigits, hwritten, hkept, x, hx, hrounded, fun hexact => ?_⟩
  have hkeptNumber : x = Binary.ofNat (2 ^ 57 + 16) := hrounded.unique (Number.rounded_ofNat _)
  have hexactNumber : x = Binary.ofNat (2 ^ 57 + 17) := hexact.unique (Number.rounded_ofNat _)
  exact absurd (hkeptNumber.symm.trans hexactNumber) (by decide +kernel)

/-- The text of `2 ^ 57 + 17` in radix 16 is not read as the nearest Number. -/
theorem radix_text_not_nearest : ∃ x, (Value.string "0x200000000000011").toNumber = .ok x ∧
    Number.written 16 [2, 0, 0, 0, 0, 0, 0, 0, 0, 0, 0, 0, 0, 1, 1] = 0x200000000000011 ∧
    ¬ Number.Rounded x false (0x200000000000011 : Nat) := by
  refine ⟨Binary.ofNat (2 ^ 57), by decide +kernel, by decide, fun hrounded => ?_⟩
  exact absurd (Number.rounded_ofNat_iff.1 hrounded) (by decide +kernel)

end Vector128
