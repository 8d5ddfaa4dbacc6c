/-
Numbers in the default locale, read back.

A finite Number is written as `Locale.Localized` says: its sign, the digits of the integer part in groups of three,
and up to three places that end in no zero. The groups are counted from the last digit while the text is written from
the first one, so `grouped_eq` follows the recursion: a digit opens a new group exactly if the digits after it fill
theirs. Without the commas the text is a numeral (`Localized.ofText?_eq`), and its magnitude is the multiple of 1/1000
nearest to the Number's (`localized_number_nearest`).
-/
import Mathlib.Data.List.DropRight
import Vector128.Locale
import Vector128.Proofs.Binary.NearestInteger
import Vector128.Proofs.Number.Rounded

namespace Vector128

namespace Locale

variable {n : Nat} {digits first places text : List Char} {rest : List (List Char)} {negative : Bool}

/-- Groups of three digits, and one to three in the first group. -/
structure Groups (first : List Char) (rest : List (List Char)) : Prop where
  first_pos : 0 < first.length
  first_le : first.length ≤ 3
  three : ∀ group ∈ rest, group.length = 3

theorem Groups.length_flatten (h : Groups first rest) :
    (first :: rest).flatten.length = first.length + 3 * rest.length := by
  have hsum : (rest.map List.length).sum = 3 * rest.length := by
    rw [List.map_congr_left (g := fun _ => 3) h.three]
    simp [Nat.mul_comm]
  rw [List.flatten_cons, List.length_append, List.length_flatten, hsum]

/-- a digit before full groups opens a group -/
theorem Groups.opened (h : Groups first rest) (hfull : (first :: rest).flatten.length % 3 = 0) (digit : Char) :
    Groups [digit] (first :: rest) := by
  have hlength := h.length_flatten
  have hpos := h.first_pos
  have hle := h.first_le
  refine ⟨by simp, by simp, fun group hgroup => ?_⟩
  rcases List.mem_cons.1 hgroup with rfl | hgroup
  · omega
  · exact h.three group hgroup

/-- a digit joins a first group that has room -/
theorem Groups.joined (h : Groups first rest) (hroom : (first :: rest).flatten.length % 3 ≠ 0) (digit : Char) :
    Groups (digit :: first) rest := by
  have hlength := h.length_flatten
  have hle := h.first_le
  refine ⟨by simp, ?_, h.three⟩
  rw [List.length_cons]
  omega

/-- **Digits are grouped**, and none is lost. -/
theorem grouped_eq (hne : digits ≠ []) : ∃ first rest, Groups first rest ∧ (first :: rest).flatten = digits ∧
    grouped digits = [','].intercalate (first :: rest) := by
  induction digits using grouped.induct with
  | case1 => exact absurd rfl hne
  | case2 digit => exact ⟨[digit], [], ⟨by simp, by simp, by simp⟩, by simp, by simp [grouped]⟩
  | case3 digit digits hsingle hfull ih =>
    obtain ⟨first, rest, hgroups, rfl, heq⟩ := ih (fun h => hsingle h)
    refine ⟨[digit], first :: rest, hgroups.opened hfull digit, by simp, ?_⟩
    rw [grouped, if_pos hfull, heq, List.intercalate_cons_cons]
    · simp
    · exact hsingle
  | case4 digit digits hsingle hroom ih =>
    obtain ⟨first, rest, hgroups, rfl, heq⟩ := ih (fun h => hsingle h)
    refine ⟨digit :: first, rest, hgroups.joined hroom digit, by simp, ?_⟩
    rw [grouped, if_neg hroom, heq]
    · cases rest with
      | nil => simp
      | cons group rest => simp [List.intercalate_cons_cons]
    · exact hsingle

theorem filter_digits (h : ∀ c ∈ digits, c.isDigit = true) : digits.filter (· ≠ ',') = digits := by
  refine List.filter_eq_self.2 fun c hc => ?_
  rw [decide_eq_true_eq]
  rintro rfl
  cases h ',' hc

theorem filter_intercalate {groups : List (List Char)} (h : ∀ c ∈ groups.flatten, c.isDigit = true) :
    ([','].intercalate groups).filter (· ≠ ',') = groups.flatten := by
  induction groups with
  | nil => rfl
  | cons group groups ih =>
    rw [List.flatten_cons] at h
    have hgroup : group.filter (· ≠ ',') = group := filter_digits fun c hc => h c (List.mem_append_left _ hc)
    have hrest := ih fun c hc => h c (List.mem_append_right _ hc)
    cases groups with
    | nil => simpa using hgroup
    | cons next groups =>
      rw [List.intercalate_cons_cons, List.filter_append, List.filter_append, hgroup, hrest]
      simp

theorem eq_zero_of_head?_toDigits (h : (Nat.toDigits 10 n).head? = some '0') : n = 0 := by
  induction n using Nat.strong_induction_on with
  | _ n ih =>
    rcases Nat.lt_or_ge n 10 with hn | hn
    · rw [Nat.toDigits_of_lt_base hn] at h
      exact Nat.digitChar_eq_zero.1 (Option.some.inj h)
    · rw [Nat.toDigits_of_base_le (by decide) hn, List.head?_append_of_ne_nil _ Nat.toDigits_ne_nil] at h
      have hquotient : n / 10 = 0 := ih (n / 10) (by omega) h
      omega

/-! ## Places -/

/-- the places and the zeros that they leave out are three digits -/
theorem placesOf_append_zeros (n : Nat) : ∃ k, placesOf n ++ Number.zeros k =
    Number.zeros (3 - (Nat.toDigits 10 n).length) ++ Nat.toDigits 10 n := by
  generalize hpadded : Number.zeros (3 - (Nat.toDigits 10 n).length) ++ Nat.toDigits 10 n = padded
  have hplaces : placesOf n = padded.rdropWhile (· == '0') := by
    rw [← hpadded]
    rfl
  refine ⟨(padded.rtakeWhile (· == '0')).length, ?_⟩
  rw [Number.zeros, ← List.eq_replicate_of_mem (fun c hc => by simpa using List.mem_rtakeWhile_imp hc), hplaces,
    List.rdropWhile_append_rtakeWhile]

theorem getLast?_placesOf (n : Nat) : (placesOf n).getLast? ≠ some '0' := by
  intro h
  rw [placesOf, List.getLast?_reverse] at h
  generalize (List.replicate (3 - (Nat.toDigits 10 n).length) '0' ++ Nat.toDigits 10 n).reverse = padded at h
  have hnot := List.head?_dropWhile_not (· == '0') padded
  rw [h] at hnot
  cases hnot

theorem isDigit_placesOf {c : Char} (hc : c ∈ placesOf n) : c.isDigit = true := by
  obtain ⟨k, heq⟩ := placesOf_append_zeros n
  have hmem := List.mem_append_left (Number.zeros k) hc
  rw [heq] at hmem
  rcases List.mem_append.1 hmem with hzero | hdigit
  · exact isDigit_zeros hzero
  · exact isDigit_toDigits hdigit

/-- the places of fewer than a thousand thousandths are those of three digits -/
theorem placesOf_spec (hn : n < 1000) :
    ∃ k, (placesOf n).length + k = 3 ∧ natOfDigits (placesOf n ++ Number.zeros k) = n := by
  obtain ⟨k, heq⟩ := placesOf_append_zeros n
  have hlength : (Nat.toDigits 10 n).length ≤ 3 := (Nat.length_toDigits_le_iff (by decide) (by decide)).2 hn
  refine ⟨k, ?_, ?_⟩
  · have hsame := congrArg List.length heq
    simp only [List.length_append, Number.zeros, List.length_replicate] at hsame
    omega
  · rw [heq, natOfDigits_zeros_append, natOfDigits_toDigits]

/-! ## Numbers -/

/-- A number as the locale writes it. A first group that starts with a zero is the whole integer part. -/
structure Localized (text : List Char) (negative : Bool) (first : List Char) (rest : List (List Char))
    (places : List Char) : Prop extends Groups first rest where
  text_eq : text = signText negative ++ ([','].intercalate (first :: rest) ++ Numeral.withPoint places)
  digits : ∀ c ∈ (first :: rest).flatten ++ places, c.isDigit = true
  leading : first.head? = some '0' → first = ['0'] ∧ rest = []
  places_le : places.length ≤ 3
  places_end : places.getLast? ≠ some '0'

/-- the numeral of a localized number, without its commas -/
def Localized.spelling (h : Localized text negative first rest places) : Numeral.Spelling where
  whole := (first :: rest).flatten
  fraction := places
  exponent := none
  whole_ne hnil := by
    have hpos := h.first_pos
    rw [← List.length_eq_zero_iff, h.length_flatten] at hnil
    omega
  digits := h.digits

/-- **A localized number is read** as the numeral of its digits. -/
theorem Localized.ofText?_eq (h : Localized text negative first rest places) :
    Numeral.ofText? (text.filter (· ≠ ',')) =
      some ⟨negative, natOfDigits ((first :: rest).flatten ++ places), -places.length⟩ := by
  have hwhole : ([','].intercalate (first :: rest)).filter (· ≠ ',') = (first :: rest).flatten :=
    filter_intercalate fun c hc => h.digits c (List.mem_append_left _ hc)
  have hfraction : places.filter (· ≠ ',') = places :=
    filter_digits fun c hc => h.digits c (List.mem_append_right _ hc)
  have hplaces : (Numeral.withPoint places).filter (· ≠ ',') = Numeral.withPoint places := by
    cases places with
    | nil => rfl
    | cons c places => rw [Numeral.withPoint_of_ne_nil (by simp), List.filter_cons_of_pos (by decide), hfraction]
  have hsign : (signText negative).filter (· ≠ ',') = signText negative := by
    cases negative <;> rfl
  have hspelling : h.spelling.text = (first :: rest).flatten ++ Numeral.withPoint places := by
    simp [Numeral.Spelling.text, Localized.spelling, Numeral.exponentTail]
  have htext : text.filter (· ≠ ',') = signText negative ++ h.spelling.text := by
    rw [hspelling, congrArg (List.filter (· ≠ ',')) h.text_eq, List.filter_append, List.filter_append, hsign, hwhole,
      hplaces]
  rw [htext, Numeral.Spelling.ofText?_text]
  simp [Numeral.Spelling.numeral, Localized.spelling]

/-- **Thousandths are written in the locale.** -/
theorem localized_thousandthsText (n : Nat) (negative : Bool) : ∃ first rest,
    Localized (signText negative ++ thousandthsText n) negative first rest (placesOf (n % 1000)) ∧
      (first :: rest).flatten = Nat.toDigits 10 (n / 1000) := by
  have hne : Nat.toDigits 10 (n / 1000) ≠ [] := Nat.toDigits_ne_nil
  obtain ⟨first, rest, hgroups, hflatten, heq⟩ := grouped_eq hne
  obtain ⟨k, hlength, -⟩ := placesOf_spec (Nat.mod_lt n (by decide : 0 < 1000))
  refine ⟨first, rest, ⟨hgroups, ?_, fun c hc => ?_, fun hzero => ?_, by omega, getLast?_placesOf _⟩, hflatten⟩
  · rw [thousandthsText, heq]
    cases placesOf (n % 1000) with
    | nil => rfl
    | cons c places => rfl
  · rcases List.mem_append.1 hc with hwhole | hplace
    · exact isDigit_toDigits (hflatten ▸ hwhole)
    · exact isDigit_placesOf hplace
  · -- only the digits of zero start with a zero
    have hhead : (Nat.toDigits 10 (n / 1000)).head? = some '0' := by
      rw [← hflatten, List.flatten_cons, List.head?_append, hzero]
      rfl
    have hone := hgroups.length_flatten
    rw [hflatten, eq_zero_of_head?_toDigits hhead, Nat.toDigits_zero, List.length_singleton] at hone
    have hpos := hgroups.first_pos
    have hrest : rest = [] := List.length_eq_zero_iff.1 (by omega)
    rw [hrest, eq_zero_of_head?_toDigits hhead] at hflatten
    exact ⟨by simpa using hflatten, hrest⟩

/-- **The digits are those of the thousandths**, up to the zeros that are left out. -/
theorem magnitude_thousandths (n : Nat) (negative : Bool) :
    Numeral.magnitude ⟨negative, natOfDigits (Nat.toDigits 10 (n / 1000) ++ placesOf (n % 1000)),
      -(placesOf (n % 1000)).length⟩ = n / 1000 := by
  obtain ⟨k, hlength, hplaces⟩ := placesOf_spec (Nat.mod_lt n (by decide : 0 < 1000))
  generalize placesOf (n % 1000) = places at hlength hplaces
  have hdigits : natOfDigits (Nat.toDigits 10 (n / 1000) ++ places) * 10 ^ k = n := by
    calc natOfDigits (Nat.toDigits 10 (n / 1000) ++ places) * 10 ^ k
        = natOfDigits (Nat.toDigits 10 (n / 1000) ++ (places ++ Number.zeros k)) := by
          rw [← natOfDigits_append_zeros, List.append_assoc]
      _ = 10 ^ (places.length + k) * (n / 1000) + natOfDigits (places ++ Number.zeros k) := by
          rw [natOfDigits_append, natOfDigits_toDigits, Nat.ofDigitChars_eq_ofDigitChars_zero, List.length_append,
            Number.zeros, List.length_replicate]
          rfl
      _ = n := by
          rw [hlength, hplaces]
          exact Nat.div_add_mod n 1000
  have hscale : (10 : ℚ) ^ places.length * 10 ^ k = 1000 := by
    rw [← pow_add, hlength]
    norm_num
  have hdigits' : (natOfDigits (Nat.toDigits 10 (n / 1000) ++ places) * 10 ^ k : ℚ) = n := by exact_mod_cast hdigits
  rw [Numeral.magnitude, zpow_neg, zpow_natCast, ← hdigits', ← hscale]
  field_simp

end Locale

/-- **Thousandths are the nearest ones.** -/
theorem nearestInteger_thousandths (x : Double) : NearestInteger (|x.value| * 1000) (thousandths x : Nat) := by
  have hquotient : |x.value| * 1000 = ((x.units.natAbs * 1000 : Nat) : ℚ) / Format.double.one := by
    rw [Binary.abs_value]
    push_cast
    ring
  rw [hquotient]
  exact nearestInteger_divRoundEven _ (by decide +kernel)

namespace Locale

theorem toList_numberText {x : Double} (hx : x.isFinite = true) :
    (numberText x).toList = signText x.negative ++ thousandthsText (thousandths x) := by
  rw [numberText, Binary.isNaN_of_isFinite hx, Binary.isInfinite_of_isFinite hx]
  cases x.negative <;> simp [signText]

/-- **Every finite number is written in the locale, and reads back** as the nearest multiple of 1/1000. -/
theorem localized_number_nearest {x : Double} (hx : x.isFinite = true) :
    ∃ text first rest places, Locale.default.number x = some text ∧
      Localized text.toList x.negative first rest places ∧
      ∃ (n : Numeral) (k : Int), Numeral.ofText? (text.toList.filter (· ≠ ',')) = some n ∧ n.negative = x.negative ∧
        n.magnitude = k / 1000 ∧ NearestInteger (|x.value| * 1000) k := by
  obtain ⟨first, rest, hlocalized, hflatten⟩ := localized_thousandthsText (thousandths x) x.negative
  rw [← toList_numberText hx] at hlocalized
  refine ⟨numberText x, first, rest, _, rfl, hlocalized, _, thousandths x, hlocalized.ofText?_eq, rfl, ?_,
    nearestInteger_thousandths x⟩
  rw [hflatten, magnitude_thousandths, Int.cast_natCast]

/-- -999999.9996 carries into a new group, and is written as the nearest number of thousandths, `-1,000,000`. -/
theorem localized_number_nearest_carry :
    let x : Double := Binary.ofBits 0xC12E847FFFCB923A
    x.isFinite = true ∧ Locale.default.number x = some "-1,000,000" ∧
      (∃ first rest places, Localized "-1,000,000".toList true first rest places) ∧
      NearestInteger (|x.value| * 1000) 1000000000 := by
  intro x
  have hx : x.isFinite = true := by decide +kernel
  have htext : Locale.default.number x = some "-1,000,000" := by decide +kernel
  obtain ⟨text, first, rest, places, heq, hlocalized, n, k, hread, -, hmagnitude, hnearest⟩ :=
    localized_number_nearest hx
  obtain rfl : "-1,000,000" = text := Option.some.inj (htext.symm.trans heq)
  have hn : n = ⟨true, 1000000, 0⟩ := Option.some.inj (hread.symm.trans (by decide +kernel))
  have hk : k = 1000000000 := by
    rw [hn, Numeral.magnitude, eq_div_iff (by norm_num)] at hmagnitude
    norm_num at hmagnitude
    exact_mod_cast hmagnitude.symm
  exact ⟨hx, htext, ⟨first, rest, places, hlocalized⟩, hk ▸ hnearest⟩

end Locale

end Vector128
