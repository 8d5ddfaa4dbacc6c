/-
Integers of few significant bits, and the nearest one to an integer.

A format has room for the integers of as many significant bits as it keeps (`Short`), if they are not too large, and beyond
a power of two it has no other values (`Binary.exists_short`). So an integer that is rounded to the format becomes the
nearest of those integers, and of two equally near the one whose last significant bit is zero
(`Binary.Nearest.exists_denotes`).

The first power of two beyond the significant bits is where a range ends. An integer of the range is rounded out of it
exactly if it reaches the middle between the power and the integer before it that is short (`NearestShort.lt_iff`): in the
middle the power is the even one.
-/
import Vector128.Proofs.Binary.Nearest

namespace Vector128

/-! ## Short integers -/

/-- an integer of so many significant bits at most -/
def Short (bits : Nat) (n : Int) : Prop := ∃ (k : Int) (e : Nat), k.natAbs < 2 ^ bits ∧ n = k * 2 ^ e

/-- an integer whose significant bits, of which there are so many, end in a zero -/
def EvenDigits (bits : Nat) (n : Int) : Prop :=
  ∃ (k : Int) (e : Nat), 2 ^ (bits - 1) ≤ k.natAbs ∧ k.natAbs < 2 ^ bits ∧ k % 2 = 0 ∧ n = k * 2 ^ e

/-- The short integer nearest to an integer. Of two that are equally near, it is the one whose significant bits end in a
zero. -/
structure NearestShort (bits : Nat) (n m : Int) : Prop where
  short : Short bits m
  nearest : ∀ k, Short bits k → (m - n).natAbs ≤ (k - n).natAbs
  even : ∀ k, Short bits k → (m - n).natAbs = (k - n).natAbs → k = m ∨ EvenDigits bits m

section Integers

variable {bits q : Nat} {n m k : Int}

theorem short_of_natAbs_lt (h : n.natAbs < 2 ^ bits) : Short bits n := ⟨n, 0, h, by rw [pow_zero, mul_one]⟩

theorem short_two_pow (hbits : 0 < bits) (e : Nat) : Short bits (2 ^ e) :=
  ⟨1, e, Nat.one_lt_two_pow hbits.ne', (one_mul _).symm⟩

theorem Short.neg (h : Short bits n) : Short bits (-n) := by
  obtain ⟨k, e, hk, rfl⟩ := h
  exact ⟨-k, e, by rwa [Int.natAbs_neg], (neg_mul _ _).symm⟩

theorem NearestShort.eq_of_short (h : NearestShort bits n m) (hn : Short bits n) : m = n := by
  have hzero := h.nearest n hn
  omega

/-- nothing is rounded beyond a short integer -/
theorem NearestShort.le (h : NearestShort bits n m) (hk : Short bits k) (hn : k ≤ n) : k ≤ m := by
  have hnear := h.nearest k hk
  omega

theorem short_of_natAbs_le (hbits : 0 < bits) (h : n.natAbs ≤ 2 ^ bits) : Short bits n := by
  rcases h.lt_or_eq with hlt | heq
  · exact short_of_natAbs_lt hlt
  · have hpow := short_two_pow hbits bits
    rcases Int.natAbs_eq n with hn | hn
    · rw [hn, heq]
      exact_mod_cast hpow
    · rw [hn, heq]
      exact_mod_cast hpow.neg

/-- nothing short lies between the last short integer before a power of two and the power -/
theorem Short.le_of_lt (h : Short bits m) (hm : m < 2 ^ bits * 2 ^ q) : m ≤ (2 ^ bits - 1) * 2 ^ q := by
  obtain ⟨k, e, hk, rfl⟩ := h
  have hk' : k ≤ 2 ^ bits - 1 := by
    have : (k.natAbs : Int) < 2 ^ bits := by exact_mod_cast hk
    omega
  have hD : (0 : Int) < 2 ^ q := by positivity
  rcases Nat.le_total e q with heq | heq
  · -- the digits are not the largest ones, or do not stand higher
    have hE : (0 : Int) < 2 ^ e := by positivity
    have hone : (0 : Int) ≤ 2 ^ bits - 1 := by
      have : (1 : Int) ≤ 2 ^ bits := one_le_pow₀ (by norm_num)
      omega
    calc k * 2 ^ e ≤ (2 ^ bits - 1) * 2 ^ e := mul_le_mul_of_nonneg_right hk' hE.le
      _ ≤ (2 ^ bits - 1) * 2 ^ q := mul_le_mul_of_nonneg_left (pow_le_pow_right₀ (by norm_num) heq) hone
  · -- the integer is a multiple of the step, and less than as many steps as there are
    obtain ⟨d, rfl⟩ := Nat.exists_eq_add_of_le heq
    rw [pow_add, mul_left_comm, mul_comm] at hm ⊢
    have hlt := lt_of_mul_lt_mul_right hm hD.le
    exact mul_le_mul_of_nonneg_right (by omega) hD.le

/-- the last short integer before a power of two ends in a one -/
theorem not_evenDigits_pred (hbits : 0 < bits) (q : Nat) : ¬ EvenDigits bits ((2 ^ bits - 1) * 2 ^ q) := by
  rintro ⟨k, e, -, hk, heven, heq⟩
  have hk' : (k.natAbs : Int) < 2 ^ bits := by exact_mod_cast hk
  have hodd : (2 ^ bits - 1 : Int) % 2 = 1 := by
    obtain ⟨b, rfl⟩ := Nat.exists_eq_succ_of_ne_zero hbits.ne'
    rw [Nat.succ_eq_add_one, pow_succ]
    omega
  have hone : (1 : Int) ≤ 2 ^ bits - 1 := by omega
  rcases Nat.le_total e q with hle | hle
  · -- the digits would have to be all ones, or more than there are
    obtain ⟨d, rfl⟩ := Nat.exists_eq_add_of_le hle
    rw [pow_add, mul_left_comm, mul_comm k] at heq
    have hdigits := mul_left_cancel₀ (by positivity) heq
    have hd : (1 : Int) ≤ 2 ^ d := one_le_pow₀ (by norm_num)
    have hlarge : (2 ^ bits - 1 : Int) ≤ k := hdigits ▸ le_mul_of_one_le_right (by omega) hd
    omega
  · -- an even number of steps is no odd one
    obtain ⟨d, rfl⟩ := Nat.exists_eq_add_of_le hle
    rw [pow_add, mul_left_comm, mul_comm (2 ^ bits - 1 : Int)] at heq
    have hsteps := mul_left_cancel₀ (by positivity) heq
    rw [hsteps, Int.mul_emod, heven, zero_mul, Int.zero_emod] at hodd
    omega

/-- **An integer is rounded up to a power of two exactly if it reaches the middle** between the power and the last short
integer before it. -/
theorem NearestShort.lt_iff (hbits : 0 < bits) (h : NearestShort bits n m) (hn : n < 2 ^ bits * 2 ^ (q + 1)) :
    m < 2 ^ bits * 2 ^ (q + 1) ↔ n < 2 ^ bits * 2 ^ (q + 1) - 2 ^ q := by
  have hstep : (2 ^ (q + 1) : Int) = 2 * 2 ^ q := pow_succ' 2 q
  have hpos : (0 : Int) < 2 ^ q := by positivity
  have hlast : ((2 ^ bits - 1) * 2 ^ (q + 1) : Int) = 2 ^ bits * 2 ^ (q + 1) - 2 ^ (q + 1) := by ring
  have htop : Short bits (2 ^ bits * 2 ^ (q + 1)) := pow_add (2 : Int) bits (q + 1) ▸ short_two_pow hbits _
  constructor
  · intro hm
    by_contra hlimit
    have hbelow := h.short.le_of_lt hm
    have hnear := h.nearest _ htop
    -- only the middle is as near to the power as to an integer below it, and it goes to the power
    obtain rfl : m = (2 ^ bits - 1) * 2 ^ (q + 1) := by omega
    rcases h.even _ htop (by omega) with heq | heven
    · omega
    · exact not_evenDigits_pred hbits _ heven
  · intro hlimit
    by_contra hm
    have hpred : Short bits ((2 ^ bits - 1) * 2 ^ (q + 1)) := by
      refine ⟨_, _, ?_, rfl⟩
      have hone : (1 : Int) ≤ 2 ^ bits := one_le_pow₀ (by norm_num)
      zify
      rw [abs_of_nonneg (by omega)]
      omega
    have hnear := h.nearest _ hpred
    omega

end Integers

/-! ## Rounding to a format -/

namespace Binary

variable {f : Format} {x : Binary f} {n m : Int} {b : Nat}

theorem denotes_of_short (he : 2 ≤ f.exponentBits) (hm : Short (f.fractionBits + 1) m)
    (hfin : m.natAbs * f.one < f.finiteUnits) : (ofInt m : Binary f).Denotes m := by
  obtain ⟨k, e, hk, rfl⟩ := hm
  have hdigits : k.natAbs < 2 * f.binade := by rwa [f.binade_eq, ← pow_succ']
  have hmag : (k * 2 ^ e).natAbs = k.natAbs * 2 ^ e := by
    rw [Int.natAbs_mul, Int.natAbs_pow]
    rfl
  obtain ⟨hfinite, hunits⟩ := ofInt_exact he hmag hdigits hfin
  exact ⟨hfinite, hunits⟩

/-- **A large value is a short integer**: its digits are all in use, and end as its code does. -/
theorem exists_short (hf : 0 < f.fractionBits) (hx : x.isFinite = true)
    (hlarge : 2 ^ f.fractionBits * f.one ≤ x.units.natAbs) : ∃ m, x.Denotes m ∧ Short (f.fractionBits + 1) m ∧
      (x.code.toNat % 2 = 0 → EvenDigits (f.fractionBits + 1) m) := by
  obtain ⟨r, shift, hr, hcode⟩ := f.exists_aligned_code x.code.toNat
  have hunits : x.units.natAbs = r * 2 ^ shift := by rw [natAbs_units, hcode, hr.unitsOf]
  have hdigits := hr.digits
  rw [f.binade_eq, ← pow_succ'] at hdigits
  rw [hunits, f.one_eq] at hlarge
  have hscale : f.scale ≤ shift := by
    have hlt : 2 ^ f.scale < 2 ^ (shift + 1) := by
      apply lt_of_mul_lt_mul_left _ (Nat.zero_le (2 ^ f.fractionBits))
      calc 2 ^ f.fractionBits * 2 ^ f.scale ≤ r * 2 ^ shift := hlarge
        _ < 2 ^ (f.fractionBits + 1) * 2 ^ shift := Nat.mul_lt_mul_of_pos_right hdigits (Nat.two_pow_pos _)
        _ = 2 ^ f.fractionBits * 2 ^ (shift + 1) := by ring
    exact Nat.le_of_lt_succ ((Nat.pow_lt_pow_iff_right (by decide)).1 hlt)
  obtain ⟨e, rfl⟩ := Nat.exists_eq_add_of_le hscale
  have hlead : 2 ^ f.fractionBits ≤ r := by
    rcases hr.leading with hzero | hlead
    · obtain ⟨hs, rfl⟩ : f.scale = 0 ∧ e = 0 := by omega
      rwa [hs, pow_zero, mul_one, mul_one] at hlarge
    · exact hlead
  -- the signed digits
  have hnatAbs : (if x.negative then -(r : Int) else r).natAbs = r := by split_ifs <;> simp
  refine ⟨(if x.negative then -(r : Int) else r) * 2 ^ e, ⟨hx, ?_⟩, ⟨_, e, hnatAbs.symm ▸ hdigits, rfl⟩, fun heven => ?_⟩
  · rw [x.units_eq_natAbs, hunits, f.one_eq, pow_add]
    push_cast
    split_ifs <;> ring
  · refine ⟨_, e, hnatAbs.symm ▸ hlead, hnatAbs.symm ▸ hdigits, ?_, rfl⟩
    rw [hcode, Nat.add_mod, Nat.mul_mod, Format.binade_mod_two hf] at heven
    split_ifs <;> omega

theorem abs_value_sub_intCast (h : x.Denotes m) (n : Int) : |x.value - n| = ((m - n).natAbs : ℚ) := by
  have hvalue : x.value = m := (number?_eq_ofRat_iff.1 (denotes_iff.1 h)).2
  rw [hvalue, ← Int.cast_sub, Nat.cast_natAbs, Int.cast_abs]

/-- the value nearest to an integer that has too many bits has all its digits in use -/
theorem Nearest.large {c : Int} (hx : x.Nearest n) (hc : (ofInt c : Binary f).Denotes c)
    (hdigits : c.natAbs = 2 ^ (f.fractionBits + 1)) (hbetween : (c - n).natAbs + c.natAbs = n.natAbs) :
    2 ^ f.fractionBits * f.one ≤ x.units.natAbs := by
  have hnear := hx.nearest _ hc.finite
  rw [abs_value_sub_intCast hc] at hnear
  have htriangle : (n.natAbs : ℚ) ≤ |x.value| + |x.value - n| := by
    rw [Nat.cast_natAbs, Int.cast_abs, add_comm]
    calc |(n : ℚ)| = |x.value - (x.value - n)| := by rw [sub_sub_cancel]
      _ ≤ |x.value| + |x.value - n| := abs_sub _ _
      _ = |x.value - n| + |x.value| := add_comm _ _
  have hvalue : (c.natAbs : ℚ) ≤ |x.value| := by
    have hsum : ((c - n).natAbs : ℚ) + c.natAbs = n.natAbs := by exact_mod_cast hbetween
    linarith
  rw [abs_value, le_div_iff₀ (one_cast_pos f), hdigits, pow_succ] at hvalue
  have hdouble : 2 ^ f.fractionBits * 2 * f.one ≤ x.units.natAbs := by exact_mod_cast hvalue
  calc 2 ^ f.fractionBits * f.one ≤ 2 ^ f.fractionBits * 2 * f.one :=
        Nat.mul_le_mul_right _ (Nat.le_mul_of_pos_right _ Nat.two_pos)
    _ ≤ x.units.natAbs := hdouble

section Room

variable (he : 2 ≤ f.exponentBits) (hb : b + 2 + f.scale ≤ f.fractionBits + (2 ^ f.exponentBits - 2))

include he hb

theorem denotes_of_room {k : Int} (hk : Short (f.fractionBits + 1) k) (hlt : k.natAbs < 2 ^ (b + 2)) :
    (ofInt k : Binary f).Denotes k :=
  denotes_of_short he hk (f.mul_one_lt hlt hb)

/-- the nearest value is the integer itself, or one that has all its digits in use -/
theorem Nearest.exists_short (hf : 0 < f.fractionBits) (hn : n.natAbs < 2 ^ b) (hx : x.Nearest n) :
    ∃ m, x.Denotes m ∧ Short (f.fractionBits + 1) m ∧
      (m = n ∨ (x.code.toNat % 2 = 0 → EvenDigits (f.fractionBits + 1) m)) := by
  have hroom : 2 ^ (b + 2) = 4 * 2 ^ b := by ring
  by_cases hshort : Short (f.fractionBits + 1) n
  · have hself : (ofInt n : Binary f).Denotes n := denotes_of_room he hb hshort (by omega)
    have hnear := hx.nearest _ hself.finite
    rw [abs_value_sub_intCast hself, sub_self, Int.natAbs_zero, Nat.cast_zero, abs_nonpos_iff, sub_eq_zero] at hnear
    exact ⟨n, denotes_iff.2 (number?_eq_ofRat_iff.2 ⟨hx.finite, hnear⟩), hshort, Or.inl rfl⟩
  · have hmany : 2 ^ (f.fractionBits + 1) < n.natAbs :=
      not_le.1 fun hle => hshort (short_of_natAbs_le (Nat.succ_pos _) hle)
    -- the power of two on the side of the integer is no farther off than its digits allow
    have hlarge : 2 ^ f.fractionBits * f.one ≤ x.units.natAbs := by
      have hpow : Short (f.fractionBits + 1) (2 ^ (f.fractionBits + 1) : Nat) := by
        exact_mod_cast short_two_pow (Nat.succ_pos _) _
      generalize hc : 2 ^ (f.fractionBits + 1) = c at hpow hmany
      rcases le_total 0 n with hsign | hsign
      · exact hx.large (denotes_of_room he hb hpow (by omega)) (by omega) (by omega)
      · exact hx.large (denotes_of_room he hb hpow.neg (by omega)) (by omega) (by omega)
    obtain ⟨m, hm, hmshort, heven⟩ := Binary.exists_short hf hx.finite hlarge
    exact ⟨m, hm, hmshort, Or.inr heven⟩

/-- **An integer is rounded to the nearest short one**, where the format has room for integers four times as large. -/
theorem Nearest.exists_denotes (hf : 0 < f.fractionBits) (hn : n.natAbs < 2 ^ b) (hx : x.Nearest n) :
    ∃ m, x.Denotes m ∧ NearestShort (f.fractionBits + 1) n m := by
  have hroom : 2 ^ (b + 2) = 4 * 2 ^ b := by ring
  obtain ⟨m, hm, hmshort, hcases⟩ := hx.exists_short he hb hf hn
  have hnearest : ∀ k, Short (f.fractionBits + 1) k → k.natAbs < 2 ^ (b + 2) → (m - n).natAbs ≤ (k - n).natAbs := by
    intro k hk hlt
    have hother := denotes_of_room he hb hk hlt
    have hnear := hx.nearest _ hother.finite
    rw [abs_value_sub_intCast hm, abs_value_sub_intCast hother] at hnear
    exact_mod_cast hnear
  -- what there is no room for is farther off than zero is
  have hzero := hnearest 0 (short_of_natAbs_lt (Nat.two_pow_pos _)) (Nat.two_pow_pos _)
  refine ⟨m, hm, hmshort, fun k hk => ?_, fun k hk hequal => ?_⟩
  · rcases Nat.lt_or_ge k.natAbs (2 ^ (b + 2)) with hlt | hge
    · exact hnearest k hk hlt
    · omega
  · rcases hcases with rfl | heven
    · left
      omega
    · have hother := denotes_of_room he hb hk (by omega)
      have hvalues : |x.value - n| = |(ofInt k : Binary f).value - n| := by
        rw [abs_value_sub_intCast hm, abs_value_sub_intCast hother, hequal]
      refine (hx.even _ hother.finite hvalues).imp (fun h => ?_) heven
      rw [(number?_eq_ofRat_iff.1 (denotes_iff.1 hother)).2, (number?_eq_ofRat_iff.1 (denotes_iff.1 hm)).2] at h
      exact_mod_cast h

end Room

end Binary

end Vector128
