/-
Correct rounding, of magnitudes with a sign.

`Number.Rounded` says which Number a signed magnitude is rounded to: the nearest one, the even one of two, and an infinity
from the middle between the largest Number and `2 ^ 1024` on. The sign is kept, that of zero too. There is one such Number
(`Number.Rounded.unique`), because two values that are equally near and both even have a third one between them
(`Binary.Nearest.value_unique`). Rounding a quotient of units finds it (`Number.rounded_ofUnits`), and so does reading a
numeral (`Numeral.rounded_toDouble`).
-/
import Vector128.Proofs.Binary.Nearest
import Vector128.Proofs.Decimal.Numeral

namespace Vector128

namespace Binary

variable {f : Format} {x y : Binary f} {q : ℚ}

theorem isFinite_iff_rank : x.isFinite = true ↔ x.rank.natAbs < f.infinityCode := by
  rw [natAbs_rank, isFinite, decide_eq_true_iff]

theorem exists_rank_eq {r : Int} (hr : r.natAbs < f.infinityCode) : ∃ z : Binary f, z.isFinite = true ∧ z.rank = r := by
  have hcode : (ofCode (decide (r < 0)) r.natAbs : Binary f).code.toNat = r.natAbs := toNat_code_ofCode _ hr.le
  have hrank : (ofCode (decide (r < 0)) r.natAbs : Binary f).rank = r := by
    rw [rank, hcode, ofCode]
    simp only [decide_eq_true_eq]
    split_ifs <;> omega
  exact ⟨_, isFinite_iff_rank.2 (hrank.symm ▸ hr), hrank⟩

theorem eq_of_value_eq (hvalue : x.value = y.value) (hsign : x.negative = y.negative) : x = y := by
  have hunits : x.units = y.units := by
    rwa [value, value, div_left_inj' (one_cast_pos f).ne', Int.cast_inj] at hvalue
  exact eq_of_rank_eq (rank_eq_iff.2 hunits) hsign

/-- what lies between two numbers is nearer to their middle -/
theorem abs_sub_lt_of_between {a b c : ℚ} (hac : a < c) (hcb : c < b) (h : |a - q| = |b - q|) : |c - q| < |a - q| := by
  rcases abs_eq_abs.1 h with heq | heq
  · exact absurd heq (by linarith)
  · rw [abs_of_neg (show a - q < 0 by linarith), abs_lt]
    constructor <;> linarith

/-- of two nearest values the lower one is not lower -/
theorem Nearest.not_value_lt (hx : x.Nearest q) (hy : y.Nearest q) : ¬ x.value < y.value := by
  intro hlt
  have hdist : |x.value - q| = |y.value - q| := le_antisymm (hx.nearest y hy.finite) (hy.nearest x hx.finite)
  have hxeven := (hx.even y hy.finite hdist).resolve_left hlt.ne'
  have hyeven := (hy.even x hx.finite hdist.symm).resolve_left hlt.ne
  have hrank : x.rank < y.rank := rank_lt_iff.2 (value_lt_iff.1 hlt)
  -- the codes are even, so there is a value in between
  rw [← natAbs_rank] at hxeven hyeven
  have hxfin := isFinite_iff_rank.1 hx.finite
  have hyfin := isFinite_iff_rank.1 hy.finite
  obtain ⟨z, hz, hzrank⟩ := exists_rank_eq (f := f) (show (x.rank + 1).natAbs < f.infinityCode by omega)
  have hxz : x.value < z.value := value_lt_iff.2 (rank_lt_iff.1 (by omega))
  have hzy : z.value < y.value := value_lt_iff.2 (rank_lt_iff.1 (by omega))
  exact absurd (hx.nearest z hz) (not_le.2 (abs_sub_lt_of_between hxz hzy hdist))

/-- **There is one nearest number.** -/
theorem Nearest.value_unique (hx : x.Nearest q) (hy : y.Nearest q) : x.value = y.value :=
  le_antisymm (not_lt.1 (hy.not_value_lt hx)) (not_lt.1 (hx.not_value_lt hy))

end Binary

namespace Number

open Binary (Nearest ofUnits one_cast_pos)

variable {x y : Double} {negative : Bool} {q : ℚ}

/-- The Number that a magnitude with a sign is rounded to. From the middle between the largest Number and `2 ^ 1024` on it
is an infinity, and below it is the nearest Number. -/
structure Rounded (x : Double) (negative : Bool) (q : ℚ) : Prop where
  isNaN : x.isNaN = false
  sign : x.negative = negative
  infinite : x.isInfinite = true ↔ (2 ^ 1024 - 2 ^ 970 : ℚ) ≤ q
  nearest : q < 2 ^ 1024 - 2 ^ 970 → x.Nearest (if negative then -q else q)

/-- **A signed magnitude is rounded to one Number.** -/
theorem Rounded.unique (hx : Rounded x negative q) (hy : Rounded y negative q) : x = y := by
  have hsign : x.negative = y.negative := hx.sign.trans hy.sign.symm
  rcases lt_or_ge q (2 ^ 1024 - 2 ^ 970) with hlt | hge
  · exact Binary.eq_of_value_eq ((hx.nearest hlt).value_unique (hy.nearest hlt)) hsign
  · rw [Binary.eq_infinity (hx.infinite.2 hge), Binary.eq_infinity (hy.infinite.2 hge), hsign]

theorem codeOf_eq_infinityCode_double_iff {num den : Nat} (hden : 0 < den) :
    Format.double.codeOf num den = Format.double.infinityCode ↔
      (2 ^ 1024 - 2 ^ 970 : ℚ) ≤ num / (den * Format.double.one) := by
  have hmiddle : Format.double.unitsOf (Format.double.infinityCode - 1) +
      Format.double.unitsOf Format.double.infinityCode = 2 * ((2 ^ 1024 - 2 ^ 970) * Format.double.one) := by
    decide +kernel
  have hle : 2 ^ 970 ≤ 2 ^ 1024 := pow_le_pow_right₀ one_le_two (show 970 ≤ 1024 by decide)
  have hcast : ((2 ^ 1024 - 2 ^ 970 : Nat) : ℚ) = 2 ^ 1024 - 2 ^ 970 := by
    rw [Nat.cast_sub hle, Nat.cast_pow, Nat.cast_pow, Nat.cast_ofNat]
  have hpos : (0 : ℚ) < den * Format.double.one := mul_pos (Nat.cast_pos.2 hden) (one_cast_pos _)
  rw [Format.codeOf_eq_infinityCode_iff (by decide) (by decide) hden, hmiddle, mul_assoc,
    Nat.mul_le_mul_left_iff Nat.two_pos, le_div_iff₀ hpos, ← hcast, ← Nat.cast_mul, ← Nat.cast_mul, Nat.cast_le,
    mul_assoc, mul_comm den]

/-- **A quotient of units is rounded correctly.** -/
theorem rounded_ofUnits (negative : Bool) (num : Nat) {den : Nat} (hden : 0 < den) :
    Rounded (ofUnits negative num den) negative (num / (den * Format.double.one)) where
  isNaN := Binary.isNaN_ofUnits _ _ _
  sign := rfl
  infinite := by
    rw [Binary.isInfinite, Binary.toNat_code_ofUnits, decide_eq_true_iff]
    exact codeOf_eq_infinityCode_double_iff hden
  nearest := by
    intro hlt
    have hfin : Format.double.codeOf num den < Format.double.infinityCode :=
      lt_of_le_of_ne (Nat.min_le_right _ _) (mt (codeOf_eq_infinityCode_double_iff hden).1 (not_le.2 hlt))
    have hvalue : ((if negative then -num else num : Int) : ℚ) / (den * Format.double.one) =
        if negative then -(num / (den * Format.double.one) : ℚ) else num / (den * Format.double.one) := by
      split_ifs
      · rw [Int.cast_neg, Int.cast_natCast, neg_div]
      · rw [Int.cast_natCast]
    rw [← hvalue]
    exact Binary.nearest_ofUnits (by decide) hden hfin negative

theorem rounded_ofNat (n : Nat) : Rounded (Binary.ofNat n) false n := by
  have hround := rounded_ofUnits false (n * Format.double.one) Nat.one_pos
  rwa [Nat.cast_mul, Nat.cast_one, one_mul, mul_div_assoc, div_self (one_cast_pos _).ne', mul_one] at hround

end Number

namespace Numeral

/-- the number that a numeral stands for, without its sign -/
def magnitude (n : Numeral) : ℚ := n.coefficient * 10 ^ n.exponent

/-- **A numeral is rounded correctly.** -/
theorem rounded_toDouble (n : Numeral) : Number.Rounded n.toDouble n.negative n.magnitude := by
  have hround := Number.rounded_ofUnits n.negative (n.coefficient * tenPow n.exponent.toNat * Format.double.one)
    (Decimal.Interval.tenPow_pos (-n.exponent).toNat)
  rw [Nat.cast_mul, Nat.cast_mul, mul_div_mul_right _ _ (Binary.one_cast_pos _).ne', mul_div_assoc,
    Decimal.Interval.tenPow_div] at hround
  rw [toDouble_eq]
  exact hround

theorem toDouble_congr {n m : Numeral} (hsign : n.negative = m.negative) (hmagnitude : n.magnitude = m.magnitude) :
    n.toDouble = m.toDouble := by
  have hn := n.rounded_toDouble
  rw [hsign, hmagnitude] at hn
  exact hn.unique m.rounded_toDouble

end Numeral

end Vector128
