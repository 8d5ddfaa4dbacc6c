/-
Rounding gives the nearest value, and of two equally near the one with the even code.

A quotient of units lies between two neighbouring magnitudes (`Format.exists_neighbours`), and it is rounded to the nearer
one. Every other magnitude lies beyond one of the two, so it is farther off (`Format.codeOf_nearest`); the values of the
other sign lie beyond zero. `Binary.nearest_ofUnits` says so of every rounded result that is finite, and
`Binary.nearest_ofInt` of integers.
-/
import Vector128.Proofs.Binary.Value

namespace Vector128

namespace Format

variable {f : Format} {code num den : Nat}

/-- A quotient lies between two neighbouring magnitudes and is rounded to the nearer of their codes; in the middle, to
the even one. -/
theorem exists_neighbours (hf : 0 < f.fractionBits) (hden : 0 < den) (num : Nat) :
    ∃ code, f.unitsOf code * den ≤ num ∧ num < f.unitsOf (code + 1) * den ∧
      (f.codeOf num den = min code f.infinityCode ∧ 2 * num ≤ f.unitsOf code * den + f.unitsOf (code + 1) * den ∧
          (code % 2 = 1 → 2 * num ≠ f.unitsOf code * den + f.unitsOf (code + 1) * den) ∨
        f.codeOf num den = min (code + 1) f.infinityCode ∧ f.unitsOf code * den + f.unitsOf (code + 1) * den ≤ 2 * num ∧
          (code % 2 = 0 → 2 * num ≠ f.unitsOf code * den + f.unitsOf (code + 1) * den)) := by
  obtain ⟨shift, hlead, hdigits⟩ := f.exists_place num hden
  have hstep : 0 < den * 2 ^ shift := Nat.mul_pos hden (Nat.two_pow_pos _)
  have haligned : f.Aligned (num / (den * 2 ^ shift)) shift := by
    refine ⟨(Nat.div_lt_iff_lt_mul hstep).2 ?_, hlead.imp_right fun h => (Nat.le_div_iff_mul_le hstep).2 ?_⟩
    · calc num < 2 * f.binade * 2 ^ shift * den := hdigits
        _ = 2 * f.binade * (den * 2 ^ shift) := by ring
    · calc f.binade * (den * 2 ^ shift) = f.binade * 2 ^ shift * den := by ring
        _ ≤ num := h
  have hbelow : f.unitsOf (shift * f.binade + num / (den * 2 ^ shift)) * den =
      num / (den * 2 ^ shift) * (den * 2 ^ shift) := by
    rw [haligned.unitsOf]
    ring
  have habove : f.unitsOf (shift * f.binade + num / (den * 2 ^ shift) + 1) * den =
      num / (den * 2 ^ shift) * (den * 2 ^ shift) + den * 2 ^ shift := by
    rw [haligned.unitsOf_succ]
    ring
  have hparity : (shift * f.binade + num / (den * 2 ^ shift)) % 2 = num / (den * 2 ^ shift) % 2 := by
    rw [Nat.add_mod, Nat.mul_mod, binade_mod_two hf]
    simp
  have hsplit : num / (den * 2 ^ shift) * (den * 2 ^ shift) + num % (den * 2 ^ shift) = num := by
    rw [Nat.mul_comm, Nat.div_add_mod]
  have hrest := Nat.mod_lt num hstep
  refine ⟨_, by rw [hbelow]; omega, by rw [habove]; omega, ?_⟩
  rw [codeOf_at hden hlead hdigits, hbelow, habove, hparity, divRoundEven, Nat.add_assoc]
  split_ifs with hlow hhigh heven
  · exact Or.inl ⟨rfl, by omega, by omega⟩
  · exact Or.inr ⟨rfl, by omega, by omega⟩
  · exact Or.inl ⟨rfl, by omega, by omega⟩
  · exact Or.inr ⟨rfl, by omega, by omega⟩

/-- **Rounding crosses no magnitude** from below either. -/
theorem codeOf_le (hf : 0 < f.fractionBits) (hden : 0 < den) (h : num ≤ f.unitsOf code * den) :
    f.codeOf num den ≤ code := by
  obtain ⟨below, hbelow, -, hcode⟩ := exists_neighbours hf hden num
  have hle : below ≤ code :=
    f.strictMono_unitsOf.le_iff_le.1 (Nat.le_of_mul_le_mul_right (hbelow.trans h) hden)
  rcases hle.lt_or_eq with hlt | rfl
  · rcases hcode with ⟨hcode, -⟩ | ⟨hcode, -⟩ <;> omega
  · have hstep : f.unitsOf below * den < f.unitsOf (below + 1) * den :=
      Nat.mul_lt_mul_of_pos_right (f.strictMono_unitsOf (Nat.lt_succ_self below)) hden
    rcases hcode with ⟨hcode, -⟩ | ⟨-, hmiddle, -⟩ <;> omega

/-- **No magnitude is nearer to a quotient than the one it is rounded to**, and one that is as near is the same or has an
odd code. -/
theorem codeOf_nearest (hf : 0 < f.fractionBits) (hden : 0 < den) (hfin : f.codeOf num den < f.infinityCode) (k : Nat) :
    ((f.unitsOf (f.codeOf num den) * den : Nat) - num : Int).natAbs ≤ ((f.unitsOf k * den : Nat) - num : Int).natAbs ∧
    (((f.unitsOf (f.codeOf num den) * den : Nat) - num : Int).natAbs = ((f.unitsOf k * den : Nat) - num : Int).natAbs →
      f.unitsOf k * den = f.unitsOf (f.codeOf num den) * den ∨ f.codeOf num den % 2 = 0) := by
  obtain ⟨code, hbelow, habove, hcode⟩ := exists_neighbours hf hden num
  have hother : f.unitsOf k * den ≤ f.unitsOf code * den ∨ f.unitsOf (code + 1) * den ≤ f.unitsOf k * den := by
    rcases Nat.lt_or_ge code k with hlt | hge
    · exact Or.inr (Nat.mul_le_mul_right _ (f.strictMono_unitsOf.monotone hlt))
    · exact Or.inl (Nat.mul_le_mul_right _ (f.strictMono_unitsOf.monotone hge))
  rcases hcode with ⟨hcode, hnear, htie⟩ | ⟨hcode, hnear, htie⟩
  · obtain hcode : f.codeOf num den = code := by omega
    rw [hcode]
    omega
  · obtain hcode : f.codeOf num den = code + 1 := by omega
    rw [hcode]
    omega

theorem infinityCode_mod_two (hf : 0 < f.fractionBits) : f.infinityCode % 2 = 0 := by
  rw [infinityCode, Nat.mul_mod, binade_mod_two hf, Nat.mul_zero, Nat.zero_mod]

/-- **What reaches the middle between the largest magnitude and the next power of two is rounded to infinity**, and
nothing else is. -/
theorem codeOf_eq_infinityCode_iff (he : 2 ≤ f.exponentBits) (hf : 0 < f.fractionBits) (hden : 0 < den) :
    f.codeOf num den = f.infinityCode ↔
      (f.unitsOf (f.infinityCode - 1) + f.unitsOf f.infinityCode) * den ≤ 2 * num := by
  have hpos := f.infinityCode_pos he
  have heven := infinityCode_mod_two hf
  have hmono : ∀ {a b : Nat}, a ≤ b → f.unitsOf a * den ≤ f.unitsOf b * den := fun h =>
    Nat.mul_le_mul_right den (f.strictMono_unitsOf.monotone h)
  obtain ⟨code, hbelow, habove, hcode⟩ := exists_neighbours hf hden num
  rw [Nat.add_mul]
  rcases hcode with ⟨hcode, hnear, htie⟩ | ⟨hcode, hnear, htie⟩
  · rcases Nat.lt_or_ge code f.infinityCode with hlt | hge
    · have hfirst := hmono (show code ≤ f.infinityCode - 1 by omega)
      have hsecond := hmono (show code + 1 ≤ f.infinityCode by omega)
      -- the largest magnitude has an odd code, so it gives way in the middle
      have hlast : code < f.infinityCode - 1 ∨ code = f.infinityCode - 1 := by omega
      refine iff_of_false (by omega) ?_
      rcases hlast with hlast | rfl
      · have hstrict := Nat.mul_lt_mul_of_pos_right (f.strictMono_unitsOf hlast) hden
        omega
      · have hmiddle := htie (by omega)
        omega
    · have hfirst := hmono (show f.infinityCode - 1 ≤ code by omega)
      have hsecond := hmono hge
      exact iff_of_true (by omega) (by omega)
  · rcases Nat.lt_or_ge (code + 1) f.infinityCode with hlt | hge
    · have hfirst := hmono (show code + 1 ≤ f.infinityCode - 1 by omega)
      have hsecond := hmono (show code + 1 ≤ f.infinityCode by omega)
      exact iff_of_false (by omega) (by omega)
    · have hfirst := hmono (show f.infinityCode - 1 ≤ code by omega)
      have hsecond := hmono hge
      exact iff_of_true (by omega) (by omega)

end Format

namespace Binary

variable {f : Format} {num den : Nat}

/-- The value is the nearest one to a number. Of two that are equally near, it is the one with the even code, whose last
fraction bit is zero. -/
structure Nearest (x : Binary f) (q : ℚ) : Prop where
  finite : x.isFinite = true
  nearest : ∀ y : Binary f, y.isFinite = true → |x.value - q| ≤ |y.value - q|
  even : ∀ y : Binary f, y.isFinite = true → |x.value - q| = |y.value - q| →
    y.value = x.value ∨ x.code.toNat % 2 = 0

/-- how far a finite value is from a quotient of units, in units over the denominator -/
theorem abs_value_sub (x : Binary f) (hden : 0 < den) (n : Int) :
    |x.value - (n : ℚ) / (den * f.one)| = ((x.units * den - n).natAbs : ℚ) / (den * f.one) := by
  have hden' : (0 : ℚ) < den := Nat.cast_pos.2 hden
  have hone := one_cast_pos f
  have hvalue : x.value - (n : ℚ) / (den * f.one) = ((x.units * den - n : Int) : ℚ) / (den * f.one) := by
    rw [value]
    push_cast
    field_simp
  rw [hvalue, abs_div, abs_of_pos (mul_pos hden' hone), Nat.cast_natAbs, Int.cast_abs]

/-- **A rounded result is the nearest value**, if it is finite. -/
theorem nearest_ofUnits (hf : 0 < f.fractionBits) (hden : 0 < den) (hfin : f.codeOf num den < f.infinityCode)
    (negative : Bool) : (ofUnits negative num den : Binary f).Nearest
      (((if negative then -num else num : Int) : ℚ) / (den * f.one)) := by
  have hpos : (0 : ℚ) < den * f.one := mul_pos (Nat.cast_pos.2 hden) (one_cast_pos f)
  have hunits : (ofUnits negative num den : Binary f).units * den =
      if negative then -((f.unitsOf (f.codeOf num den) * den : Nat) : Int)
      else (f.unitsOf (f.codeOf num den) * den : Nat) := by
    rw [units, toNat_code_ofUnits, ofUnits, ofCode]
    cases negative <;> simp
  have hother : ∀ y : Binary f, y.units * den =
      if y.negative then -((f.unitsOf y.code.toNat * den : Nat) : Int) else (f.unitsOf y.code.toNat * den : Nat) := by
    intro y
    rw [units]
    split_ifs <;> simp
  have hzero := Format.codeOf_nearest hf hden hfin 0
  rw [Format.unitsOf_eq_zero_iff.2 rfl, Nat.zero_mul] at hzero
  refine ⟨?_, ?_, ?_⟩
  · rw [isFinite, toNat_code_ofUnits]
    exact decide_eq_true hfin
  · intro y _
    obtain ⟨hnear, -⟩ := Format.codeOf_nearest hf hden hfin y.code.toNat
    rw [abs_value_sub _ hden, abs_value_sub _ hden, div_le_div_iff_of_pos_right hpos, Nat.cast_le, hunits, hother]
    split_ifs <;> omega
  · intro y _ h
    obtain ⟨hnear, htie⟩ := Format.codeOf_nearest hf hden hfin y.code.toNat
    rw [abs_value_sub _ hden, abs_value_sub _ hden, div_left_inj' hpos.ne', Nat.cast_inj] at h
    rw [toNat_code_ofUnits]
    refine or_iff_not_imp_right.2 fun hodd => ?_
    -- a value of the other sign is beyond zero, and as near only if it is zero itself
    have hsame : y.units * den = (ofUnits negative num den : Binary f).units * den := by
      rw [hunits, hother] at h ⊢
      split_ifs at h ⊢ <;> omega
    rw [value, value, mul_right_cancel₀ (Int.natCast_ne_zero.2 hden.ne') hsame]

theorem nearest_ofInt (hf : 0 < f.fractionBits) {n : Int} {code : Nat} (hcode : code < f.infinityCode)
    (h : n.natAbs * f.one ≤ f.unitsOf code) : (ofInt n : Binary f).Nearest n := by
  have hfin : f.codeOf (n.natAbs * f.one) 1 < f.infinityCode :=
    (Format.codeOf_le hf Nat.one_pos (by rwa [Nat.mul_one])).trans_lt hcode
  have hround := nearest_ofUnits hf Nat.one_pos hfin (decide (n < 0))
  have hsigned : (if decide (n < 0) then -((n.natAbs * f.one : Nat) : Int) else (n.natAbs * f.one : Nat)) =
      n * f.one := by
    rw [Nat.cast_mul, ← neg_mul, ← ite_mul]
    congr 1
    simp only [decide_eq_true_eq]
    split_ifs <;> omega
  rw [hsigned, Int.cast_mul, Int.cast_natCast, Nat.cast_one, one_mul, mul_div_assoc, div_self (one_cast_pos f).ne',
    mul_one] at hround
  exact hround

/-! ## Conversions -/

variable {g : Format} {x : Binary f}

theorem convert_of_isFinite (hx : x.isFinite = true) :
    (x.convert : Binary g) = ofUnits x.negative (x.units.natAbs * g.one) f.one := by
  rw [convert, isNaN_of_isFinite hx, isInfinite_of_isFinite hx, if_neg Bool.false_ne_true, if_neg Bool.false_ne_true]

theorem negative_convert (x : Binary f) : (x.convert : Binary g).negative = x.negative := by
  unfold convert
  split_ifs <;> rfl

theorem abs_value (x : Binary f) : |x.value| = x.units.natAbs / f.one := by
  rw [value, abs_div, abs_of_pos (one_cast_pos f), Nat.cast_natAbs, Int.cast_abs]

/-- **A conversion gives the nearest value**, if that is finite. -/
theorem nearest_convert (hg : 0 < g.fractionBits) (hx : x.isFinite = true)
    (hfin : (x.convert : Binary g).isFinite = true) : (x.convert : Binary g).Nearest x.value := by
  rw [convert_of_isFinite hx] at hfin ⊢
  have hcode : g.codeOf (x.units.natAbs * g.one) f.one < g.infinityCode := by
    have hlt : (ofUnits x.negative (x.units.natAbs * g.one) f.one : Binary g).code.toNat < g.infinityCode :=
      of_decide_eq_true hfin
    rwa [toNat_code_ofUnits] at hlt
  have hvalue : ((if x.negative then -(x.units.natAbs * g.one : Nat) else (x.units.natAbs * g.one : Nat) : Int) : ℚ) /
      (f.one * g.one) = x.value := by
    have hsigned : (if x.negative then -(x.units.natAbs * g.one : Nat) else (x.units.natAbs * g.one : Nat) : Int) =
        x.units * g.one := by
      rw [Nat.cast_mul, ← neg_mul, ← ite_mul, ← units_eq_natAbs]
    rw [hsigned, Int.cast_mul, Int.cast_natCast, mul_div_mul_right _ _ (one_cast_pos g).ne', value]
  rw [← hvalue]
  exact nearest_ofUnits hg (one_pos f) hcode x.negative

/-- A finite value is converted to infinity exactly if it reaches the middle between the largest value and the next power
of two. -/
theorem isInfinite_convert_iff (he : 2 ≤ g.exponentBits) (hg : 0 < g.fractionBits) (hx : x.isFinite = true) :
    (x.convert : Binary g).isInfinite = true ↔
      (g.unitsOf (g.infinityCode - 1) + g.unitsOf g.infinityCode) * f.one ≤ 2 * (x.units.natAbs * g.one) := by
  rw [convert_of_isFinite hx, isInfinite, toNat_code_ofUnits, decide_eq_true_iff,
    Format.codeOf_eq_infinityCode_iff he hg (one_pos f)]

end Binary

end Vector128
