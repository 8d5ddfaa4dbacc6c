/-
Numbers that are integers, and which of them are indices.

A value is an integer if it is finite and as many ones as the integer says (`Binary.Denotes`); a zero of either sign
denotes 0. An index is what its own length equals, which makes it an integer from 0 to the largest length and nothing
else (`Number.index?_eq_some_iff`).

A sum of two integers may be rounded, but it is compared as the exact sum would be, if it is compared with an integer
below `2 ^ 53` (`Number.less_add_iff`): a smaller sum is exact, and rounding takes no other sum below `2 ^ 53`. A
product with a power of two is exact anyway (`Number.denotes_mul_pow`).
-/
import Vector128.Proofs.Binary.Order
import Vector128.Proofs.Binary.Sum

namespace Vector128

namespace Binary

variable {f : Format} {x y : Binary f} {n m : Int}

/-- the value is the integer -/
structure Denotes (x : Binary f) (n : Int) : Prop where
  finite : x.isFinite = true
  units : x.units = n * f.one

theorem one_ne_zero (f : Format) : (f.one : Int) ≠ 0 := Int.natCast_ne_zero.2 (one_pos f).ne'

namespace Denotes

theorem unique (hn : x.Denotes n) (hm : x.Denotes m) : n = m :=
  mul_right_cancel₀ (one_ne_zero f) (hn.units.symm.trans hm.units)

theorem truncate? (h : x.Denotes n) : x.truncate? = some n := by
  rw [Binary.truncate?, if_pos h.finite, h.units, Int.mul_tdiv_cancel _ (one_ne_zero f)]

theorem isInfinite (h : x.Denotes n) : x.isInfinite = false := isInfinite_of_isFinite h.finite

theorem less_iff (hx : x.Denotes n) (hy : y.Denotes m) : x.less y = true ↔ n < m := by
  rw [Binary.less_iff hx.finite hy.finite, hx.units, hy.units]
  exact Int.mul_lt_mul_right (Int.natCast_pos.2 (one_pos f))

theorem equal_iff (hx : x.isFinite = true) (hy : y.Denotes n) : x.equal y = true ↔ x.Denotes n := by
  rw [Binary.equal_iff hx hy.finite, hy.units]
  exact ⟨fun h => ⟨hx, h⟩, Denotes.units⟩

end Denotes

end Binary

namespace Number

open Binary (Denotes)

variable {x y z : Double} {k : Nat}

theorem denotes_ofInt {n : Int} (hn : n.natAbs ≤ 2 ^ 53) : (Binary.ofInt n : Double).Denotes n :=
  ⟨(ofInt_exact hn).1, (ofInt_exact hn).2⟩

theorem denotes_ofNat (hk : k < 2 ^ 53) : (Binary.ofNat k : Double).Denotes k := denotes_ofInt hk.le

theorem denotes_zero : (Binary.zero : Double).Denotes 0 := Binary.ofInt_zero _ ▸ denotes_ofInt (by decide)

/-- a finite Number is taken for true exactly if it differs from zero -/
theorem truthy_of_isFinite (hx : x.isFinite = true) : x.truthy = !x.equal Binary.zero := by
  have hzero : x.isZero = x.equal Binary.zero := by
    rw [Bool.eq_iff_iff, Binary.isZero_iff_units, Binary.equal_iff hx denotes_zero.finite, denotes_zero.units, zero_mul]
  rw [Binary.truthy, Binary.isNaN_of_isFinite hx, Bool.or_false, hzero]

theorem denotes_mul_pow {e : Nat} (hk : k < 2 ^ 53) (he : e < 53) :
    ((Binary.ofNat k : Double).mul (Binary.ofNat (2 ^ e))).Denotes (k * 2 ^ e : Nat) := by
  have hpow : 2 ^ e < 2 ^ 53 := Nat.pow_lt_pow_right (by decide) he
  have hprod : k * 2 ^ e < 2 ^ 106 := by
    calc k * 2 ^ e < 2 ^ 53 * 2 ^ 53 := Nat.mul_lt_mul'' hk hpow
      _ = 2 ^ 106 := by rw [← pow_add]
  have hB : 2 * Format.double.binade = 2 ^ 53 := rfl
  obtain ⟨hfinite, hunits⟩ := Binary.mul_ofNat_exact (f := Format.double) (by decide) (hB ▸ hk) (hB ▸ hpow)
    (Format.mul_one_lt hprod (by decide)) (Format.mul_one_lt hpow (by decide))
  exact ⟨hfinite, hunits.trans (Nat.cast_mul _ _)⟩

theorem integerPart_of_denotes {n : Int} (h : x.Denotes n) : integerPart x = n := by
  rw [integerPart, h.truncate?, Option.getD_some]

theorem maxSafeInteger_lt : maxSafeInteger < 2 ^ 53 := by decide

theorem clamped_le (limit : Nat) (x : Double) : clamped limit x ≤ limit := by
  unfold clamped
  split_ifs
  · exact Nat.zero_le _
  · exact le_rfl
  · exact min_le_right _ _

theorem clamped_of_denotes {limit : Nat} (h : x.Denotes k) (hk : k ≤ limit) : clamped limit x = k := by
  rw [clamped, h.isInfinite, if_neg Bool.false_ne_true, integerPart_of_denotes h, Int.toNat_natCast,
    Nat.min_eq_left hk]

theorem toLength_le (x : Double) : toLength x ≤ maxSafeInteger := clamped_le _ x

theorem toLength_of_denotes (h : x.Denotes k) (hk : k ≤ maxSafeInteger) : toLength x = k := clamped_of_denotes h hk

/-- **A Number is an index exactly if it is an integer from 0 to the largest length**, and then its own. -/
theorem index?_eq_some_iff : index? x = some k ↔ x.Denotes k ∧ k ≤ maxSafeInteger := by
  have hlength : (Binary.ofNat (toLength x) : Double).Denotes (toLength x) :=
    denotes_ofNat ((toLength_le x).trans_lt maxSafeInteger_lt)
  constructor
  · intro h
    unfold index? at h
    split_ifs at h with hequal
    obtain rfl := Option.some.inj h
    exact ⟨(Denotes.equal_iff (Binary.isFinite_of_equal hequal hlength.finite) hlength).1 hequal, toLength_le x⟩
  · rintro ⟨h, hk⟩
    rw [toLength_of_denotes h hk] at hlength
    rw [index?, toLength_of_denotes h hk, if_pos ((Denotes.equal_iff h.finite hlength).2 h)]

theorem index?_lt (h : index? x = some k) : k < 2 ^ 53 := (index?_eq_some_iff.1 h).2.trans_lt maxSafeInteger_lt

theorem index?_eq_none_iff : index? x = none ↔ ∀ k : Nat, x.Denotes k → maxSafeInteger < k := by
  rw [Option.eq_none_iff_forall_ne_some]
  constructor
  · intro h k hx
    by_contra hk
    exact h k (index?_eq_some_iff.2 ⟨hx, not_lt.1 hk⟩)
  · intro h k hk
    obtain ⟨hx, hle⟩ := index?_eq_some_iff.1 hk
    exact absurd (h k hx) (not_lt.2 hle)

/-! ## Sums -/

theorem denotes_add {a b : Int} (hx : x.Denotes a) (hy : y.Denotes b) (h : (a + b).natAbs ≤ 2 ^ 53) :
    (x.add y).Denotes (a + b) := by
  have hsum := denotes_ofInt h
  have hunits : x.units + y.units = (Binary.ofInt (a + b) : Double).units := by
    rw [hx.units, hy.units, hsum.units, add_mul]
  obtain ⟨hfinite, hadd⟩ := Binary.add_exact (by decide) hx.finite hy.finite hsum.finite hunits
  exact ⟨hfinite, hadd.trans hsum.units⟩

theorem rank_ofUnits_false {f : Format} (num den : Nat) :
    (Binary.ofUnits false num den : Binary f).rank = f.codeOf num den :=
  congrArg Nat.cast (Binary.toNat_code_ofUnits false num den)

/-- **A sum is compared as if it were exact**, with an integer below `2 ^ 53`. -/
theorem less_add_iff {l a b : Nat} (hz : z.Denotes l) (hl : l < 2 ^ 53) (hx : x.Denotes a) (hy : y.Denotes b) :
    z.less (x.add y) = true ↔ l < a + b := by
  rcases Nat.lt_or_ge (a + b) (2 ^ 53) with hsmall | hlarge
  · have hsum : (a + b : Int).natAbs = a + b := Int.natAbs_natCast (a + b)
    rw [hz.less_iff (denotes_add hx hy (hsum ▸ hsmall.le)), ← Nat.cast_add, Int.ofNat_lt]
  · obtain ⟨negative, hadd, hnegative⟩ := Binary.add_of_isFinite hx.finite hy.finite
    have hsum : x.units + y.units = ((a + b) * Format.double.one : Nat) := by
      rw [hx.units, hy.units, ← add_mul, Nat.cast_mul, Nat.cast_add]
    have hpos : 0 < (a + b) * Format.double.one := Nat.mul_pos (by omega) (Binary.one_pos _)
    rw [hsum] at hadd hnegative
    obtain rfl : negative = false := (hnegative (by omega)).trans (Binary.decide_natCast_neg _)
    rw [Int.natAbs_natCast] at hadd
    -- the value 2 ^ 53 lies between the two
    have hbound : 1 * 2 ^ (53 + Format.double.scale) = 2 ^ 53 * Format.double.one := by
      rw [one_mul, pow_add, Format.one_eq]
    have hfin : 1 * 2 ^ (53 + Format.double.scale) < Format.double.finiteUnits := by
      rw [hbound]
      exact Format.mul_one_lt (show 2 ^ 53 < 2 ^ 54 by decide) (by decide)
    obtain ⟨hcode, hunits⟩ := Format.unitsOf_codeOf (f := Format.double) (by decide) (by decide) hfin Nat.one_pos
    have hvalue := (Binary.ofUnits_exact (f := Format.double) (by decide) false (by decide) hfin Nat.one_pos).2
    have hbelow : z.rank < (Binary.ofUnits false (1 * 2 ^ (53 + Format.double.scale) * 1) 1 : Double).rank := by
      rw [Binary.rank_lt_iff, hvalue, if_neg Bool.false_ne_true, hbound, hz.units, Nat.cast_mul]
      exact Int.mul_lt_mul_of_pos_right (Int.ofNat_lt.2 hl) (Int.natCast_pos.2 (Binary.one_pos _))
    have habove : Format.double.codeOf (1 * 2 ^ (53 + Format.double.scale) * 1) 1 ≤
        Format.double.codeOf ((a + b) * Format.double.one) 1 := by
      apply Format.le_codeOf Nat.one_pos hcode.le
      rw [hunits, hbound, Nat.mul_one]
      exact Nat.mul_le_mul_right _ hlarge
    refine iff_of_true ?_ (hl.trans_le hlarge)
    rw [Binary.less, Binary.unordered, Binary.isNaN_of_isFinite hz.finite, hadd, Binary.isNaN_ofUnits]
    refine decide_eq_true (lt_of_lt_of_le hbelow ?_)
    rw [rank_ofUnits_false, rank_ofUnits_false]
    exact Int.ofNat_le.2 habove

end Number

end Vector128
