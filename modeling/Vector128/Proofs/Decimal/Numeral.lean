/-
A numeral is read as it is written, and rounded to the nearest 64-bit float.

The guards of `Numeral.toDouble` stop no magnitude that they should not: where one answers, the rounding of the exact
quotient gives the same (`Numeral.toDouble_eq`). What a text has to be made of to be read is `Numeral.Spelling`: digits,
perhaps a point and more digits, and perhaps an exponent. The digits that are read are all of them in one row, and the
point takes as many powers of ten away as digits follow it (`Numeral.Spelling.ofText?_eq`).
-/
import Vector128.Decimal.Numeral
import Vector128.Number.Text
import Vector128.Proofs.Decimal.Shortest

namespace Vector128

open Decimal.Interval (tenPow_pos)

theorem natOfDigits_append (xs ys : List Char) :
    natOfDigits (xs ++ ys) = Nat.ofDigitChars 10 ys (natOfDigits xs) := Nat.ofDigitChars_append 0

theorem natOfDigits_toDigits (n : Nat) : natOfDigits (Nat.toDigits 10 n) = n := Nat.ofDigitChars_ten_toDigits

theorem natOfDigits_zeros_append (k : Nat) (digits : List Char) :
    natOfDigits (Number.zeros k ++ digits) = natOfDigits digits := by
  rw [natOfDigits_append, show natOfDigits (Number.zeros k) = 0 from Nat.ofDigitChars_replicate_zero]
  rfl

theorem natOfDigits_append_zeros (digits : List Char) (k : Nat) :
    natOfDigits (digits ++ Number.zeros k) = natOfDigits digits * 10 ^ k := by
  rw [natOfDigits_append, Number.zeros, Nat.ofDigitChars_replicate_zero, Nat.mul_comm]

theorem isDigit_toDigits {n : Nat} {c : Char} (h : c ∈ Nat.toDigits 10 n) : c.isDigit = true :=
  Nat.isDigit_of_mem_toDigits (by decide) (by decide) h

theorem isDigit_zeros {k : Nat} {c : Char} (h : c ∈ Number.zeros k) : c.isDigit = true := by
  rw [List.eq_of_mem_replicate h]
  rfl

theorem spanDigits_append {digits rest : List Char} (hdigits : ∀ c ∈ digits, c.isDigit = true)
    (hrest : ∀ c ∈ rest.head?, c.isDigit = false) : spanDigits (digits ++ rest) = (digits, rest) := by
  rw [spanDigits, List.takeWhile_append_of_pos hdigits, List.dropWhile_append_of_pos hdigits]
  cases rest with
  | nil => simp
  | cons c rest =>
    have hc : c.isDigit = false := hrest c rfl
    simp [hc]

def signText (negative : Bool) : List Char := if negative then ['-'] else []

theorem splitSign_signText (negative : Bool) {c : Char} {rest : List Char} (hc : c.isDigit = true) :
    splitSign (signText negative ++ c :: rest) = (negative, c :: rest) := by
  cases negative with
  | true => rfl
  | false =>
    simp only [signText, Bool.false_eq_true, if_false, List.nil_append]
    unfold splitSign
    split
    · rename_i h
      obtain ⟨rfl, -⟩ := List.cons.inj h
      cases hc
    · rename_i h
      obtain ⟨rfl, -⟩ := List.cons.inj h
      cases hc
    · rfl

namespace Numeral

/-! ## Rounding -/

theorem ten_pow_reached_le {n : Nat} (h : n ≠ 0) : 10 ^ reached n ≤ n :=
  (ten_pow_le_two_pow (by unfold reached; omega)).trans (Nat.log2_self_le h)

theorem lt_ten_pow_unreached (n : Nat) : n < 10 ^ unreached n :=
  Nat.lt_log2_self.trans_le (two_pow_le_ten_pow (by unfold unreached; omega))

/-- **A numeral is rounded once**: the guards answer only what the rounding of the exact quotient gives. -/
theorem toDouble_eq (n : Numeral) : n.toDouble = Binary.ofUnits n.negative
    (n.coefficient * tenPow n.exponent.toNat * Format.double.one) (tenPow (-n.exponent).toNat) := by
  have hpos : 0 < tenPow (-n.exponent).toNat := tenPow_pos _
  have hone : Format.double.one = 2 ^ Format.double.scale := Format.double.one_eq
  have hfinite : Format.double.finiteUnits = 2 ^ (1024 + Format.double.scale) := by
    rw [Format.finiteUnits, show 52 + (2 ^ 11 - 2) = 1024 + Format.double.scale by decide]
  have hscale : Format.double.scale = 1074 := by decide
  -- the exponents of two stay as they are: they are too large to be computed
  generalize Format.double.scale = scale at hone hfinite hscale
  unfold toDouble
  split_ifs with hzero hlarge
  · rw [Binary.ofUnits, Format.codeOf_eq_zero]
    rcases hzero with hzero | hsmall
    · rw [hzero, Nat.zero_mul, Nat.zero_mul, Nat.mul_zero]
      exact hpos
    · have hexp : n.exponent.toNat = 0 := by omega
      rw [hexp, hone]
      calc 2 * (n.coefficient * tenPow 0 * 2 ^ scale) = n.coefficient * 2 ^ (scale + 1) := by
            rw [show tenPow 0 = 1 from rfl, pow_succ]
            ring
        _ < 10 ^ unreached n.coefficient * 2 ^ (scale + 1) :=
            Nat.mul_lt_mul_of_pos_right (lt_ten_pow_unreached _) (Nat.two_pow_pos _)
        _ ≤ 10 ^ unreached n.coefficient * 10 ^ 331 := Nat.mul_le_mul_left _ (two_pow_le_ten_pow (by omega))
        _ ≤ 10 ^ (-n.exponent).toNat := by
            rw [← pow_add]
            exact Nat.pow_le_pow_right (by decide) (by omega)
  · rw [Binary.ofUnits, Format.codeOf_eq_infinityCode _ hpos]
    · rfl
    · rw [hone, hfinite, pow_add]
      calc 2 ^ 1024 * 2 ^ scale * tenPow (-n.exponent).toNat ≤ 10 ^ 313 * 2 ^ scale * 10 ^ (-n.exponent).toNat :=
            Nat.mul_le_mul_right _ (Nat.mul_le_mul_right _ (two_pow_le_ten_pow (by decide)))
        _ = 10 ^ (313 + (-n.exponent).toNat) * 2 ^ scale := by rw [pow_add, Nat.mul_right_comm]
        _ ≤ 10 ^ (reached n.coefficient + n.exponent.toNat) * 2 ^ scale :=
            Nat.mul_le_mul_right _ (Nat.pow_le_pow_right (by decide) (by omega))
        _ = 10 ^ reached n.coefficient * tenPow n.exponent.toNat * 2 ^ scale := by
            rw [pow_add]
            rfl
        _ ≤ n.coefficient * tenPow n.exponent.toNat * 2 ^ scale :=
            Nat.mul_le_mul_right _ (Nat.mul_le_mul_right _ (ten_pow_reached_le (not_or.1 hzero).1))
  · rfl

/-! ## Reading -/

def withPoint : List Char → List Char
  | [] => []
  | fraction => '.' :: fraction

theorem withPoint_of_ne_nil {fraction : List Char} (h : fraction ≠ []) : withPoint fraction = '.' :: fraction := by
  cases fraction with
  | nil => exact absurd rfl h
  | cons c fraction => rfl

def exponentTail : Option Int → List Char
  | none => []
  | some e => 'e' :: (Number.exponentText "+" e).toList

theorem toList_exponentText (plus : String) (e : Int) : (Number.exponentText plus e).toList =
    (if e < 0 then ['-'] else plus.toList) ++ Nat.toDigits 10 e.natAbs := by
  rw [Number.exponentText, String.toList_append, Nat.toString_eq_repr, Nat.toList_repr]
  split_ifs <;> rfl

theorem isDigit_head_exponentTail {e : Option Int} : ∀ c ∈ (exponentTail e).head?, c.isDigit = false := by
  cases e with
  | none => simp [exponentTail]
  | some e => simp [exponentTail]

theorem exponentOf?_exponentTail (e : Option Int) : exponentOf? (exponentTail e) = some (e.getD 0) := by
  cases e with
  | none => rfl
  | some e =>
    have hspan : spanDigits (Nat.toDigits 10 e.natAbs ++ []) = (Nat.toDigits 10 e.natAbs, []) :=
      spanDigits_append (fun c hc => isDigit_toDigits hc) (by simp)
    rw [List.append_nil] at hspan
    have hne : Nat.toDigits 10 e.natAbs ≠ [] := Nat.toDigits_ne_nil
    rw [exponentTail, toList_exponentText]
    split_ifs with hneg
    · simp [exponentOf?, splitSign, hspan, natOfDigits_toDigits, hne, abs_of_neg hneg]
    · simp [exponentOf?, splitSign, hspan, natOfDigits_toDigits, hne, abs_of_nonneg (not_lt.1 hneg)]

theorem spanFraction_withPoint {fraction : List Char} (h : ∀ c ∈ fraction, c.isDigit = true) (e : Option Int) :
    spanFraction (withPoint fraction ++ exponentTail e) = (fraction, exponentTail e) := by
  cases fraction with
  | nil =>
    cases e with
    | none => rfl
    | some e => rfl
  | cons c fraction => exact spanDigits_append h isDigit_head_exponentTail

/-- The parts of a written number: digits, digits behind a point, and an exponent. -/
structure Spelling where
  whole : List Char
  fraction : List Char
  exponent : Option Int
  whole_ne : whole ≠ []
  digits : ∀ c ∈ whole ++ fraction, c.isDigit = true

namespace Spelling

def text (p : Spelling) : List Char := p.whole ++ (withPoint p.fraction ++ exponentTail p.exponent)

/-- the numeral that is spelled, with a sign given to it -/
def numeral (p : Spelling) (negative : Bool) : Numeral :=
  ⟨negative, natOfDigits (p.whole ++ p.fraction), p.exponent.getD 0 - p.fraction.length⟩

/-- **What is spelled is read.** -/
theorem ofText?_text (p : Spelling) (negative : Bool) :
    ofText? (signText negative ++ p.text) = some (p.numeral negative) := by
  have hwhole : ∀ c ∈ p.whole, c.isDigit = true := fun c hc => p.digits c (List.mem_append_left _ hc)
  have hfraction : ∀ c ∈ p.fraction, c.isDigit = true := fun c hc => p.digits c (List.mem_append_right _ hc)
  have hsign : splitSign (signText negative ++ p.text) = (negative, p.text) := by
    obtain ⟨c, rest, hc⟩ := List.exists_cons_of_ne_nil p.whole_ne
    rw [text, hc]
    exact splitSign_signText negative (hwhole c (hc ▸ List.mem_cons_self))
  have hspan : spanDigits p.text = (p.whole, withPoint p.fraction ++ exponentTail p.exponent) := by
    refine spanDigits_append hwhole ?_
    cases p.fraction with
    | nil => exact isDigit_head_exponentTail
    | cons c fraction => simp [withPoint]
  simp only [ofText?, hsign, hspan, spanFraction_withPoint hfraction, exponentOf?_exponentTail, p.whole_ne, false_and,
    if_false, Option.map_some]
  rfl

end Spelling

end Numeral

end Vector128
