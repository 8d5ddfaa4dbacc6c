/-
Clamped bytes are rounded exactly.

A Number kept between two others is one of the three (`Binary.clamp_exact`). From zero on it is rounded by what it is
above its floor, which is compared with a half. That rest is a value, so nothing is rounded before the comparison, and the
choice between the floor and its successor is the one that `divRoundEven` makes of the units (`denotes_roundTiesEven`).
-/
import Vector128.Memory.View
import Vector128.Proofs.Number.LowBits

namespace Vector128

open Binary (Denotes)

namespace Binary

variable {f : Format} {x low high : Binary f}

theorem isFinite_of_between (hx : x.isNaN = false) (hlow : low.isFinite = true) (hhigh : high.isFinite = true)
    (hge : low.units ≤ x.units) (hle : x.units ≤ high.units) : x.isFinite = true := by
  refine x.isFinite_of_not hx (Bool.eq_false_iff.2 fun hinf => ?_)
  obtain ⟨hbelow, -⟩ := rank_bounds hlow
  obtain ⟨-, habove⟩ := rank_bounds hhigh
  have hrank := rank_of_isInfinite hinf
  rw [← not_lt, ← rank_lt_iff] at hge hle
  split_ifs at hrank <;> omega

/-- **A value is kept between two others**, the infinities too. -/
theorem clamp_exact (hx : x.isNaN = false) (hlow : low.isFinite = true) (hhigh : high.isFinite = true)
    (hle : low.units ≤ high.units) :
    (x.clamp low high).isFinite = true ∧ (x.clamp low high).units = max low.units (min x.units high.units) := by
  have hlow' := isNaN_of_isFinite hlow
  have hhigh' := isNaN_of_isFinite hhigh
  rw [clamp]
  by_cases hbelow : x.units < low.units
  · rw [if_pos ((less_iff_of_not_isNaN hx hlow').2 hbelow), if_neg (mt (less_iff hhigh hlow).1 (not_lt.2 hle))]
    exact ⟨hlow, by omega⟩
  · rw [if_neg (mt (less_iff_of_not_isNaN hx hlow').1 hbelow)]
    by_cases habove : high.units < x.units
    · rw [if_pos ((less_iff_of_not_isNaN hhigh' hx).2 habove)]
      exact ⟨hhigh, by omega⟩
    · rw [if_neg (mt (less_iff_of_not_isNaN hhigh' hx).1 habove)]
      exact ⟨isFinite_of_between hx hlow hhigh (not_lt.1 hbelow) (not_lt.1 habove), by omega⟩

end Binary

variable {x : Double}

theorem half_exact : (Binary.ofUnits false Format.double.one 2 : Double).isFinite = true ∧
    2 * (Binary.ofUnits false Format.double.one 2 : Double).units = Format.double.one := by
  decide +kernel

/-- **The comparison with a half rounds to nearest**, and to even in the middle. -/
theorem denotes_roundTiesEven {m : Nat} (hx : x.isFinite = true) (hm : x.units = m)
    (hlt : m < 2 ^ 53 * Format.double.one) : (roundTiesEven x).Denotes (divRoundEven m Format.double.one : Nat) := by
  have hpos : 0 ≤ x.units := hm ▸ Int.natCast_nonneg m
  have hfloor : x.floor.Denotes (m / Format.double.one : Nat) := by
    obtain ⟨hfinite, hunits⟩ := Binary.floor_exact (by decide) hx hpos
    exact ⟨hfinite, hunits.trans (by rw [hm, Int.natCast_div])⟩
  have hnext : (x.floor.add (Binary.ofNat 1)).Denotes (m / Format.double.one + 1 : Nat) := by
    have hquotient : m / Format.double.one < 2 ^ 53 := (Nat.div_lt_iff_lt_mul (Binary.one_pos _)).2 hlt
    refine Number.denotes_add hfloor (Number.denotes_ofNat (by decide)) ?_
    rw [← Nat.cast_add, Int.natAbs_natCast]
    exact hquotient
  have hfits : Format.double.one < Format.double.finiteUnits := by
    have h := Format.mul_one_lt (f := .double) (show 1 < 2 ^ 1 by decide) (by decide)
    rwa [Nat.one_mul] at h
  obtain ⟨hrest, hrestUnits⟩ := Binary.sub_floor_exact (by decide) hfits hx hpos
  rw [hm, ← Int.natCast_mod] at hrestUnits
  obtain ⟨hhalf, hhalfUnits⟩ := half_exact
  have hless : (x.sub x.floor).less (Binary.ofUnits false Format.double.one 2) = true ↔
      2 * (m % Format.double.one) < Format.double.one := by
    rw [Binary.less_iff hrest hhalf, hrestUnits]
    omega
  have hequal : (x.sub x.floor).equal (Binary.ofUnits false Format.double.one 2) = true ↔
      2 * (m % Format.double.one) = Format.double.one := by
    rw [Binary.equal_iff hrest hhalf, hrestUnits]
    omega
  have heven : (x.floor.rem (Binary.ofNat 2)).equal Binary.zero = true ↔ m / Format.double.one % 2 = 0 := by
    have hrem := Number.denotes_rem hfloor (Number.denotes_ofNat (k := 2) (by decide)) (by decide)
    rw [← Int.ofNat_tmod] at hrem
    rw [Denotes.equal_iff hrem.finite Number.denotes_zero]
    constructor
    · intro h
      exact Int.ofNat_inj.1 (hrem.unique h)
    · intro h
      rwa [h] at hrem
  simp only [roundTiesEven, divRoundEven, Bool.or_eq_true, Bool.and_eq_true, hless, hequal, heven]
  split_ifs
  all_goals first
    | exact hfloor
    | exact hnext
    | omega

/-! ## Bytes -/

theorem Number.toUnsigned_of_denotes {bits k : Nat} (hbits : bits ≤ 52) (h : x.Denotes (k : Nat)) (hk : k < 2 ^ bits) :
    Number.toUnsigned bits x = k := by
  have hmod := Number.toUnsigned_eq hbits x
  rw [Number.integerPart_of_denotes h] at hmod
  rw [← Int.ofNat_inj, hmod]
  exact_mod_cast Nat.mod_eq_of_lt hk

/-- **A clamped byte is the nearest one**, of two that are as near the even one, and NaN is zero. -/
theorem clampedByte_eq (x : Double) : clampedByte x =
    if x.isNaN || x.negative then 0 else min 255 (divRoundEven x.units.natAbs Format.double.one) := by
  cases hx : x.isNaN with
  | true =>
    rw [clampedByte, hx, Bool.true_or, if_pos rfl, if_pos rfl]
    exact Number.toUnsigned_of_denotes (by decide) Number.denotes_zero (by decide)
  | false =>
    have hzero : (Binary.zero : Double).Denotes 0 := Number.denotes_zero
    have hmax : (Binary.ofNat 255 : Double).Denotes (255 : Nat) := Number.denotes_ofNat (by decide)
    have hle : (Binary.zero : Double).units ≤ (Binary.ofNat 255 : Double).units := by
      rw [hzero.units, hmax.units]
      omega
    obtain ⟨hfinite, hunits⟩ := Binary.clamp_exact hx hzero.finite hmax.finite hle
    rw [hzero.units, zero_mul, hmax.units, ← Nat.cast_mul] at hunits
    obtain ⟨m, hm⟩ := Int.eq_ofNat_of_zero_le (hunits ▸ le_max_left _ _)
    have hbound : m ≤ 255 * Format.double.one := by omega
    have hone := Binary.one_pos Format.double
    have hround := denotes_roundTiesEven hfinite hm (by omega)
    have hbyte := divRoundEven_le hbound
    rw [clampedByte, hx, Bool.false_or, if_neg Bool.false_ne_true, Number.toUnsigned_of_denotes (by decide) hround
      (by omega)]
    have hsign := x.units_eq_natAbs
    split_ifs at hsign ⊢ with hneg
    · obtain rfl : m = 0 := by omega
      exact Nat.le_zero.1 (divRoundEven_le (by omega))
    · rcases Nat.le_total x.units.natAbs (255 * Format.double.one) with hsmall | hlarge
      · obtain rfl : x.units.natAbs = m := by omega
        rw [Nat.min_eq_right hbyte]
      · have htop : m = 255 * Format.double.one := by omega
        have hceiling : 255 ≤ x.units.natAbs / Format.double.one := (Nat.le_div_iff_mul_le hone).2 hlarge
        rw [htop, divRoundEven_mul 255 hone, Nat.min_eq_left (hceiling.trans (div_le_divRoundEven _ _))]

end Vector128
