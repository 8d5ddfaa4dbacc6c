/-
Digits and exponent of a decimal, collected from pieces of text.

Where the text is cut makes no difference (`Collected.ofPieces?_eq`), and of a decimal in scientific form all is collected
(`Collected.ofPieces?_scientific`): each part of the text is a run of characters that are taken in the same way, the digits
as long as there is room for them, and those of the exponent as long as it is a word.
-/
import Vector128.Number.Display
import Vector128.Proofs.Number.Text

namespace Vector128

namespace Number

namespace Collected

variable {s : Collected} {digits : List Char}

theorem pushAll_cons (s : Collected) (c : Char) (rest : List Char) :
    s.pushAll (c :: rest) = s.push c >>= fun s => s.pushAll rest := List.foldlM_cons

theorem pushAll_append (s : Collected) (front rest : List Char) :
    s.pushAll (front ++ rest) = s.pushAll front >>= fun s => s.pushAll rest := List.foldlM_append

theorem foldlM_pushAll (s : Collected) (pieces : List (List Char)) :
    pieces.foldlM pushAll s = s.pushAll pieces.flatten := by
  induction pieces generalizing s with
  | nil => rfl
  | cons piece pieces ih =>
    rw [List.foldlM_cons, List.flatten_cons, pushAll_append]
    exact congrArg _ (funext ih)

/-- **Where a text is cut makes no difference.** -/
theorem ofPieces?_eq (pieces : List (List Char)) : ofPieces? pieces = empty.pushAll pieces.flatten :=
  foldlM_pushAll empty pieces

/-! ## Parts of a decimal -/

theorem push_of_isDigit {c : Char} (h : c.isDigit = true) : s.push c =
    if s.inExponent then
      if 10 * s.exponent + (c.toNat - '0'.toNat) < twoPow 31 then
        some { s with exponent := 10 * s.exponent + (c.toNat - '0'.toNat) } else none
    else if s.digits.length < room then some { s with digits := s.digits ++ [c] } else none := by
  have hmark : c ≠ 'e' := by
    rintro rfl
    cases h
  have hsign : ¬ (c = '-' ∧ s.inExponent = true) := by
    rintro ⟨rfl, -⟩
    cases h
  rw [push, if_neg hmark, if_neg hsign, if_pos h]

theorem push_digit {c : Char} (h : c.isDigit = true) (hs : s.inExponent = false) (hroom : s.digits.length < room) :
    s.push c = some { s with digits := s.digits ++ [c] } := by
  rw [push_of_isDigit h, if_neg (Bool.eq_false_iff.1 hs), if_pos hroom]

theorem push_exponentDigit {c : Char} (h : c.isDigit = true) (hs : s.inExponent = true)
    (hword : 10 * s.exponent + (c.toNat - '0'.toNat) < twoPow 31) :
    s.push c = some { s with exponent := 10 * s.exponent + (c.toNat - '0'.toNat) } := by
  rw [push_of_isDigit h, if_pos hs, if_pos hword]

/-- digits in front of the exponent are kept, as long as there is room -/
theorem pushAll_digits (hdigits : ∀ c ∈ digits, c.isDigit = true) (hs : s.inExponent = false)
    (hroom : s.digits.length + digits.length ≤ room) :
    s.pushAll digits = some { s with digits := s.digits ++ digits } := by
  induction digits generalizing s with
  | nil => simp [pushAll]
  | cons c rest ih =>
    rw [List.forall_mem_cons] at hdigits
    rw [List.length_cons] at hroom
    have hlength : (s.digits ++ [c]).length + rest.length ≤ room := by
      rw [List.length_append, List.length_singleton]
      omega
    have hrest := ih (s := { s with digits := s.digits ++ [c] }) hdigits.2 hs hlength
    rw [List.append_assoc, List.singleton_append] at hrest
    rw [pushAll_cons, push_digit hdigits.1 hs (by omega)]
    exact hrest

theorem le_ofDigitChars (n : Nat) (digits : List Char) : n ≤ Nat.ofDigitChars 10 digits n := by
  rw [Nat.ofDigitChars_eq_ofDigitChars_zero]
  exact (Nat.le_mul_of_pos_left n (Nat.pow_pos (by decide))).trans (Nat.le_add_right _ _)

/-- digits behind the mark are those of the exponent, as long as it is a word -/
theorem pushAll_exponent (hdigits : ∀ c ∈ digits, c.isDigit = true) (hs : s.inExponent = true)
    (hword : Nat.ofDigitChars 10 digits s.exponent < twoPow 31) :
    s.pushAll digits = some { s with exponent := Nat.ofDigitChars 10 digits s.exponent } := by
  induction digits generalizing s with
  | nil => simp [pushAll]
  | cons c rest ih =>
    rw [List.forall_mem_cons] at hdigits
    rw [Nat.ofDigitChars_cons] at hword
    have hnext := lt_of_le_of_lt (le_ofDigitChars _ rest) hword
    rw [pushAll_cons, push_exponentDigit hdigits.1 hs hnext, Nat.ofDigitChars_cons]
    exact ih (s := { s with exponent := _ }) hdigits.2 hs hword

/-- a point between the digits is passed over -/
theorem pushAll_pointed (hne : digits ≠ []) (hdigits : ∀ c ∈ digits, c.isDigit = true)
    (hroom : digits.length ≤ room) : empty.pushAll (pointed digits) = some { empty with digits } := by
  have hlength : empty.digits.length + digits.length ≤ room := by rwa [show empty.digits.length = 0 from rfl, Nat.zero_add]
  refine Eq.trans ?_ (pushAll_digits hdigits rfl hlength)
  obtain ⟨first, rest, rfl⟩ := List.exists_cons_of_ne_nil hne
  cases rest with
  | nil => rfl
  | cons next rest =>
    rw [List.forall_mem_cons] at hdigits
    rw [pointed, pushAll_cons, pushAll_cons, push_digit hdigits.1 rfl (by decide)]
    rfl

theorem pushAll_exponentSign (digits : List Char) (e : Int) :
    (⟨digits, 0, true, false⟩ : Collected).pushAll (if e < 0 then ['-'] else "".toList) =
      some ⟨digits, 0, true, decide (e < 0)⟩ := by
  by_cases h : e < 0
  · rw [if_pos h, decide_eq_true h]
    rfl
  · rw [if_neg h, decide_eq_false h]
    rfl

theorem pushAll_exponentText (digits : List Char) {e : Int} (hword : e.natAbs < twoPow 31) :
    (⟨digits, 0, true, false⟩ : Collected).pushAll (exponentText "" e).toList =
      some ⟨digits, e.natAbs, true, decide (e < 0)⟩ := by
  have hvalue : Nat.ofDigitChars 10 (Nat.toDigits 10 e.natAbs) 0 = e.natAbs := Nat.ofDigitChars_ten_toDigits
  have hexponent : (⟨digits, 0, true, decide (e < 0)⟩ : Collected).pushAll (Nat.toDigits 10 e.natAbs) =
      some ⟨digits, Nat.ofDigitChars 10 (Nat.toDigits 10 e.natAbs) 0, true, decide (e < 0)⟩ :=
    pushAll_exponent (fun c hc => isDigit_toDigits hc) rfl (hvalue.symm ▸ hword)
  rw [hvalue] at hexponent
  rw [Numeral.toList_exponentText, pushAll_append, pushAll_exponentSign]
  exact hexponent

/-- **All of a decimal is collected**, from whatever pieces its scientific form comes in. -/
theorem ofPieces?_scientific {d : Decimal} {pieces : List (List Char)} (hroom : d.digits.length ≤ room)
    (hword : (d.digits.length + d.exponent - 1).natAbs < twoPow 31)
    (h : pieces.flatten = (scientific "" d).toList) : ∃ s, ofPieces? pieces = some s ∧ s.digits = d.digits ∧
      s.signedExponent = d.digits.length + d.exponent - 1 := by
  generalize he : d.digits.length + d.exponent - 1 = e at hword ⊢
  refine ⟨⟨d.digits, e.natAbs, true, decide (e < 0)⟩, ?_, rfl, ?_⟩
  · have htext : (scientific "" d).toList = pointed d.digits ++ 'e' :: (exponentText "" e).toList := by
      rw [scientific, he, String.toList_append, String.toList_append, String.toList_ofList]
      simp
    rw [ofPieces?_eq, h, htext, pushAll_append, pushAll_pointed (digits_ne_nil d) (isDigit_digits d) hroom]
    exact pushAll_exponentText d.digits hword
  · simp only [signedExponent, decide_eq_true_eq]
    split_ifs <;> omega

end Collected

end Number

end Vector128
