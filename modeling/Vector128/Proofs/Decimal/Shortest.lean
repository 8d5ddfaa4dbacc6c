/-
The shortest decimal of a Number is found, has few digits, and reads back.

The search goes down the grids of powers of ten and takes the first hit. A grid that is finer than the room above the
value has a hit (`Interval.exists_hit_of_fine`), so the search never runs out of grids and stops at the latest one step
after the first fine grid (`Interval.search_eq`). What this rests on is `Interval.Searchable`, which every Number gives.

- `Decimal.length_digits_le`: at the grid of the hit the value is less than `2 ^ 54` rooms large, and that bounds the
  coefficient to 18 digits.
- `Decimal.exponent_shortest_bounds`: the search starts near the magnitude and tries few grids, and so the exponent is
  small.
- `Decimal.codeOf_shortest`: a hit lies in the rounding interval, and what lies there is rounded to the magnitude.
-/
import Mathlib.Tactic
import Vector128.Decimal.Shortest
import Vector128.Proofs.Binary.Rounding

namespace Vector128

/-! ## Powers of two and of ten -/

theorem two_pow_le_ten_pow {m n : Nat} (h : 28 * n ≤ 93 * m) : 2 ^ n ≤ 10 ^ m := by
  apply le_of_pow_le_pow_left₀ (n := 93) (by decide) (Nat.zero_le _)
  calc (2 ^ n) ^ 93 = (2 ^ 93) ^ n := by rw [← pow_mul, ← pow_mul, mul_comm]
    _ ≤ (10 ^ 28) ^ n := Nat.pow_le_pow_left (by norm_num) n
    _ = 10 ^ (28 * n) := (pow_mul 10 28 n).symm
    _ ≤ 10 ^ (93 * m) := Nat.pow_le_pow_right (by decide) h
    _ = (10 ^ m) ^ 93 := by rw [← pow_mul, mul_comm]

theorem ten_pow_le_two_pow {m n : Nat} (h : 10 * m ≤ 3 * n) : 10 ^ m ≤ 2 ^ n := by
  apply le_of_pow_le_pow_left₀ (n := 10) (by decide) (Nat.zero_le _)
  calc (10 ^ m) ^ 10 = 10 ^ (10 * m) := by rw [← pow_mul, mul_comm]
    _ ≤ 10 ^ (3 * n) := Nat.pow_le_pow_right (by decide) h
    _ = (10 ^ 3) ^ n := pow_mul 10 3 n
    _ ≤ (2 ^ 10) ^ n := Nat.pow_le_pow_left (by norm_num) n
    _ = (2 ^ n) ^ 10 := by rw [← pow_mul, ← pow_mul, mul_comm]

/-- the logarithm of two to the base ten is between `3 / 10` and `28 / 93` -/
theorem two_zpow_le_ten_zpow {d k : Int} (h : 28 * d ≤ 93 * k) (h' : 3 * d ≤ 10 * k) : (2 : ℚ) ^ d ≤ 10 ^ k := by
  rcases le_total 0 d with hd | hd
  · obtain ⟨n, rfl⟩ := Int.eq_ofNat_of_zero_le hd
    obtain ⟨m, rfl⟩ := Int.eq_ofNat_of_zero_le (show 0 ≤ k by omega)
    rw [zpow_natCast, zpow_natCast]
    exact_mod_cast two_pow_le_ten_pow (m := m) (n := n) (by omega)
  · obtain ⟨n, hn⟩ := Int.eq_ofNat_of_zero_le (show 0 ≤ -d by omega)
    obtain rfl : d = -(n : Int) := by omega
    rcases le_total 0 k with hk | hk
    · calc (2 : ℚ) ^ (-(n : Int)) ≤ 1 := zpow_le_one_of_nonpos₀ (by norm_num) hd
        _ ≤ 10 ^ k := one_le_zpow₀ (by norm_num) hk
    · obtain ⟨m, hm⟩ := Int.eq_ofNat_of_zero_le (show 0 ≤ -k by omega)
      obtain rfl : k = -(m : Int) := by omega
      rw [zpow_neg, zpow_neg, zpow_natCast, zpow_natCast]
      apply inv_anti₀ (by positivity)
      exact_mod_cast ten_pow_le_two_pow (m := m) (n := n) (by omega)

theorem ten_zpow_le_two_zpow {d k : Int} (h : 93 * k ≤ 28 * d) (h' : 10 * k ≤ 3 * d) : (10 : ℚ) ^ k ≤ 2 ^ d := by
  have hinv : (2 : ℚ) ^ (-d) ≤ 10 ^ (-k) := two_zpow_le_ten_zpow (by omega) (by omega)
  rw [zpow_neg, zpow_neg] at hinv
  exact (inv_le_inv₀ (by positivity) (by positivity)).1 hinv

/-! ## Hits -/

namespace Decimal.Interval

variable {i : Interval} {half c : Nat} {e : Int}

/-- a grid is finer than the room above the value -/
def Fine (i : Interval) (half : Nat) (e : Int) : Prop := (i.value : ℚ) + half * 10 ^ e < i.high

/-- a power of ten as the quotient that the search computes with -/
theorem tenPow_div (e : Int) : (tenPow e.toNat : ℚ) / tenPow (-e).toNat = 10 ^ e := by
  simp only [tenPow, Nat.pow_eq]
  push_cast
  rcases le_total 0 e with he | he
  · rw [Int.toNat_of_nonpos (by omega : -e ≤ 0), pow_zero, div_one, ← zpow_natCast, Int.toNat_of_nonneg he]
  · rw [Int.toNat_of_nonpos he, pow_zero, ← zpow_natCast, Int.toNat_of_nonneg (by omega : 0 ≤ -e), zpow_neg, one_div,
      inv_inv]

theorem tenPow_pos (k : Nat) : 0 < tenPow k := Nat.pow_pos (by decide)

/-- a fine grid has a point above the value and in the interval -/
theorem exists_hit_of_fine (hlow : i.low ≤ i.value) (hhalf : 0 < half) (h : i.Fine half e) :
    ∃ c, i.hit? half e = some c := by
  have hden := tenPow_pos (-e).toNat
  have hstep : 0 < half * tenPow e.toNat := Nat.mul_pos hhalf (tenPow_pos _)
  have hfine : i.value * tenPow (-e).toNat + half * tenPow e.toNat < i.high * tenPow (-e).toNat := by
    have hdenq : (0 : ℚ) < tenPow (-e).toNat := Nat.cast_pos.2 hden
    have hmul := mul_lt_mul_of_pos_right h hdenq
    rw [← tenPow_div e, add_mul, mul_assoc, div_mul_cancel₀ _ hdenq.ne'] at hmul
    exact_mod_cast hmul
  generalize hs : half * tenPow e.toNat = step at hstep hfine
  generalize hd : tenPow (-e).toNat = den at hden hfine
  have hupper : i.holds ((i.value * den / step + 1) * step) den = true := by
    have hbelow : i.value * den < (i.value * den / step + 1) * step := by
      rw [Nat.mul_comm _ step]
      exact Nat.lt_mul_div_succ _ hstep
    have habove : (i.value * den / step + 1) * step ≤ i.value * den + step := by
      rw [Nat.succ_mul]
      exact Nat.add_le_add_right (Nat.div_mul_le_self _ _) _
    have hlowden : i.low * den ≤ i.value * den := Nat.mul_le_mul_right _ hlow
    unfold holds
    split_ifs
    · rw [Bool.and_eq_true, decide_eq_true_iff, decide_eq_true_iff]
      omega
    · rw [Bool.and_eq_true, decide_eq_true_iff, decide_eq_true_iff]
      omega
  simp only [hit?, hs, hd, hupper, Bool.and_true, if_true]
  split_ifs <;> exact ⟨_, rfl⟩

theorem le_of_hit (h : i.hit? half e = some c) : (c : ℚ) ≤ i.value / (half * 10 ^ e) + 1 := by
  have hc : c ≤ i.value * tenPow (-e).toNat / (half * tenPow e.toNat) + 1 := by
    simp only [hit?] at h
    split_ifs at h <;> · obtain rfl := Option.some.inj h; omega
  have hq : ((i.value * tenPow (-e).toNat / (half * tenPow e.toNat) : Nat) : ℚ) ≤ i.value / (half * 10 ^ e) := by
    refine Nat.cast_div_le.trans (le_of_eq ?_)
    rw [← tenPow_div e]
    push_cast
    field_simp
  calc (c : ℚ) ≤ (i.value * tenPow (-e).toNat / (half * tenPow e.toNat) : Nat) + 1 := by exact_mod_cast hc
    _ ≤ i.value / (half * 10 ^ e) + 1 := by linarith

/-- a hit lies in the interval -/
theorem holds_of_hit (h : i.hit? half e = some c) : i.holds (c * (half * tenPow e.toNat)) (tenPow (-e).toNat) = true := by
  simp only [hit?, Bool.and_eq_true] at h
  split_ifs at h with hboth hnear hlower hupper
  · obtain rfl := Option.some.inj h
    exact hboth.1
  · obtain rfl := Option.some.inj h
    exact hboth.2
  · obtain rfl := Option.some.inj h
    exact hlower
  · obtain rfl := Option.some.inj h
    exact hupper

/-- **The search ends with a hit**, if there is a fine grid among those that it tries, and no grid before is fine. -/
theorem search_eq (fuel : Nat) (hlow : i.low ≤ i.value) (hhalf : 0 < half)
    (h : ∃ k : Nat, k < fuel ∧ i.Fine half (e - k)) :
    ∃ (k c : Nat), i.search half fuel e = ⟨c, e - k⟩ ∧ i.hit? half (e - k) = some c ∧
      ∀ j : Nat, j < k → ¬ i.Fine half (e - j) := by
  induction fuel generalizing e with
  | zero =>
    obtain ⟨k, hk, -⟩ := h
    omega
  | succ fuel ih =>
    rw [search]
    cases hhit : i.hit? half e with
    | some c =>
      refine ⟨0, c, ?_, ?_, fun j hj => absurd hj (Nat.not_lt_zero j)⟩
      · rw [Nat.cast_zero, sub_zero]
      · rw [Nat.cast_zero, sub_zero, hhit]
    | none =>
      have hcoarse : ¬ i.Fine half e := by
        intro hfine
        obtain ⟨c, hc⟩ := exists_hit_of_fine hlow hhalf hfine
        rw [hhit] at hc
        cases hc
      have hrest : ∃ k : Nat, k < fuel ∧ i.Fine half (e - 1 - k) := by
        obtain ⟨k, hk, hfine⟩ := h
        cases k with
        | zero => exact absurd (by rwa [Nat.cast_zero, sub_zero] at hfine) hcoarse
        | succ k =>
          refine ⟨k, by omega, ?_⟩
          rwa [Nat.cast_succ, add_comm, ← sub_sub] at hfine
      obtain ⟨k, c, hsearch, hhit', hbefore⟩ := ih hrest
      have hexp : e - 1 - (k : Int) = e - ((k + 1 : Nat) : Int) := by omega
      refine ⟨k + 1, c, by rw [← hexp]; exact hsearch, by rw [← hexp]; exact hhit', ?_⟩
      intro j hj
      cases j with
      | zero => rwa [Nat.cast_zero, sub_zero]
      | succ j =>
        have := hbefore j (by omega)
        rwa [Nat.cast_succ, add_comm, ← sub_sub]

/-- The search from `10 ^ e` has what it needs: it starts and stops around the value, which is not too many times as
large as the room above it. -/
structure Searchable (i : Interval) (half room : Nat) (e : Int) : Prop where
  low_le : i.low ≤ i.value
  half_pos : 0 < half
  high_eq : i.high = i.value + room
  rooms : i.value < 2 ^ 54 * room
  start : (i.value : ℚ) < half * 10 ^ (e + 3)
  stop : (half : ℚ) * 10 ^ (e - 3) ≤ 2 * i.value

variable {room : Nat}

theorem Searchable.fine_iff (h : i.Searchable half room e) (e' : Int) : i.Fine half e' ↔ (half : ℚ) * 10 ^ e' < room := by
  rw [Fine, h.high_eq]
  push_cast
  exact add_lt_add_iff_left _

/-- the last grid is fine -/
theorem Searchable.fine_last (h : i.Searchable half room e) : i.Fine half (e - (56 : Nat)) := by
  have hrooms : (i.value : ℚ) < 2 ^ 54 * room := by exact_mod_cast h.rooms
  have hroom : (0 : ℚ) < room := by
    have : (0 : ℚ) ≤ i.value := Nat.cast_nonneg _
    linarith
  have hexp : e - ((56 : Nat) : Int) = e - 3 + -53 := by
    push_cast
    ring
  have hsmall : (10 : ℚ) ^ (-53 : Int) * 2 ^ 55 < 1 := by norm_num
  rw [h.fine_iff, hexp, zpow_add₀ (by norm_num), ← mul_assoc]
  calc (half : ℚ) * 10 ^ (e - 3) * 10 ^ (-53 : Int) ≤ 2 * i.value * 10 ^ (-53 : Int) :=
        mul_le_mul_of_nonneg_right h.stop (by positivity)
    _ ≤ 2 * (2 ^ 54 * room) * 10 ^ (-53 : Int) :=
        mul_le_mul_of_nonneg_right (by linarith) (by positivity)
    _ = 10 ^ (-53 : Int) * 2 ^ 55 * room := by ring
    _ < room := mul_lt_of_lt_one_left hroom hsmall

theorem Searchable.search_eq (h : i.Searchable half room e) :
    ∃ (k c : Nat), i.search half 57 e = ⟨c, e - k⟩ ∧ i.hit? half (e - k) = some c ∧
      ∀ j : Nat, j < k → ¬ i.Fine half (e - j) :=
  Interval.search_eq 57 h.low_le h.half_pos ⟨56, by decide, h.fine_last⟩

theorem Searchable.holds_search (h : i.Searchable half room e) :
    i.holds ((i.search half 57 e).coefficient * (half * tenPow (i.search half 57 e).exponent.toNat))
      (tenPow (-(i.search half 57 e).exponent).toNat) = true := by
  obtain ⟨k, c, hsearch, hhit, -⟩ := h.search_eq
  rw [hsearch]
  exact holds_of_hit hhit

theorem Searchable.coefficient_search_lt (h : i.Searchable half room e) :
    (i.search half 57 e).coefficient < 10 ^ 18 := by
  obtain ⟨k, c, hsearch, hhit, hbefore⟩ := h.search_eq
  have hhalf : (0 : ℚ) < half := Nat.cast_pos.2 h.half_pos
  have hrooms : (i.value : ℚ) < 2 ^ 54 * room := by exact_mod_cast h.rooms
  have hstep : (0 : ℚ) < half * 10 ^ (e - k) := by positivity
  -- the first grid is near the value, and before any other there was one that is not fine
  have hnear : (i.value : ℚ) ≤ 2 ^ 54 * 10 * (half * 10 ^ (e - k)) := by
    cases k with
    | zero =>
      have hstart := h.start
      rw [Nat.cast_zero, sub_zero] at hstep ⊢
      rw [zpow_add₀ (by norm_num), ← mul_assoc] at hstart
      have hthousand : (half : ℚ) * 10 ^ e * 10 ^ (3 : Int) ≤ 2 ^ 54 * 10 * (half * 10 ^ e) := by
        rw [mul_comm]
        exact mul_le_mul_of_nonneg_right (by norm_num) hstep.le
      linarith
    | succ k =>
      have hcoarse : (room : ℚ) ≤ half * 10 ^ (e - k) := not_lt.1 (mt (h.fine_iff _).2 (hbefore k (Nat.lt_succ_self k)))
      have hexp : e - (k : Int) = e - ((k + 1 : Nat) : Int) + 1 := by
        push_cast
        ring
      rw [hexp, zpow_add_one₀ (by norm_num), ← mul_assoc] at hcoarse
      linarith
  have hc : (c : ℚ) ≤ 2 ^ 54 * 10 + 1 := by
    have hquotient := (div_le_iff₀ hstep).2 hnear
    have hhitle := le_of_hit hhit
    linarith
  have hcnat : c ≤ 2 ^ 54 * 10 + 1 := by exact_mod_cast hc
  rw [hsearch]
  show c < 10 ^ 18
  omega

end Decimal.Interval

/-! ## Numbers -/

namespace Decimal

variable {f : Format} {r shift : Nat}

/-- the interval of a magnitude reaches one room below and above it, where it is not a smaller one -/
theorem intervalOf_aligned (h : f.Aligned r shift) (hpos : 0 < shift * f.binade + r) :
    (intervalOf f (shift * f.binade + r)).low ≤ (intervalOf f (shift * f.binade + r)).value ∧
      (intervalOf f (shift * f.binade + r)).value = 2 * (r * 2 ^ shift) ∧
      (intervalOf f (shift * f.binade + r)).high = 2 * (r * 2 ^ shift) + 2 ^ shift := by
  have hbelow := f.unitsOf_le_succ (shift * f.binade + r - 1)
  rw [Nat.sub_add_cancel hpos] at hbelow
  refine ⟨?_, ?_, ?_⟩
  · simp only [intervalOf]
    omega
  · simp only [intervalOf, h.unitsOf]
  · simp only [intervalOf, h.unitsOf, h.unitsOf_succ]
    ring

/-- the search starts within a few powers of ten of the magnitude -/
theorem leadingExponent_bounds {value : Nat} (hpos : 0 < value) (hlog : value.log2 < 2101) :
    (value : ℚ) < (2 * Format.double.one : Nat) * 10 ^ (leadingExponent .double value + 3) ∧
      ((2 * Format.double.one : Nat) : ℚ) * 10 ^ (leadingExponent .double value - 3) ≤ 2 * value := by
  have hscale : Format.double.scale = 1074 := by decide
  have hhalf : ((2 * Format.double.one : Nat) : ℚ) = 2 ^ ((Format.double.scale : Int) + 1) := by
    rw [Format.one, twoPow, Nat.pow_eq, zpow_add₀ (by norm_num), zpow_natCast]
    push_cast
    ring
  have hlow : (2 : ℚ) ^ (value.log2 : Int) ≤ value := by
    rw [zpow_natCast]
    exact_mod_cast Nat.log2_self_le hpos.ne'
  have hhigh : (value : ℚ) < 2 ^ ((value.log2 : Int) + 1) := by
    rw [← Nat.cast_succ, zpow_natCast]
    exact_mod_cast Nat.lt_log2_self
  rw [leadingExponent, hhalf]
  -- the exponents of two stay as they are: they are too large to be computed
  generalize Format.double.scale = scale at hscale ⊢
  generalize hk : ((value.log2 : Int) - scale) * 30103 / 100000 = t
  have hsplit : (scale : Int) + 1 + (value.log2 - scale) = value.log2 + 1 := by ring
  constructor
  · calc (value : ℚ) < 2 ^ ((scale : Int) + 1 + (value.log2 - scale)) := by rw [hsplit]; exact hhigh
      _ = 2 ^ ((scale : Int) + 1) * 2 ^ ((value.log2 : Int) - scale) := zpow_add₀ (by norm_num) _ _
      _ ≤ 2 ^ ((scale : Int) + 1) * 10 ^ (t + 1 + 3) :=
        mul_le_mul_of_nonneg_left (two_zpow_le_ten_zpow (by omega) (by omega)) (by positivity)
  · calc (2 : ℚ) ^ ((scale : Int) + 1) * 10 ^ (t + 1 - 3)
        ≤ 2 ^ ((scale : Int) + 1) * 2 ^ ((value.log2 : Int) - scale) :=
          mul_le_mul_of_nonneg_left (ten_zpow_le_two_zpow (by omega) (by omega)) (by positivity)
      _ = 2 ^ ((value.log2 : Int) + 1) := by rw [← zpow_add₀ (by norm_num), hsplit]
      _ = 2 * 2 ^ (value.log2 : Int) := by rw [zpow_add₀ (by norm_num), zpow_one, mul_comm]
      _ ≤ 2 * value := mul_le_mul_of_nonneg_left hlow (by norm_num)

/-- a finite magnitude in half units has fewer bits than the search can start from -/
theorem log2_value_lt (h : Format.double.Aligned r shift)
    (hfin : shift * Format.double.binade + r < Format.double.infinityCode) : (2 * (r * 2 ^ shift)).log2 < 2101 := by
  have hr : r < 2 ^ 53 := h.digits
  have hshift : shift < 2047 := by
    have hcode : shift * Format.double.binade < 2047 * Format.double.binade :=
      lt_of_le_of_lt (Nat.le_add_right _ _) hfin
    exact lt_of_mul_lt_mul_right hcode (Nat.zero_le _)
  have hlt : 2 * (r * 2 ^ shift) < 2 ^ (54 + shift) := by
    rw [pow_add, ← mul_assoc]
    exact Nat.mul_lt_mul_of_pos_right (by omega) (Nat.two_pow_pos _)
  by_cases hzero : 2 * (r * 2 ^ shift) = 0
  · rw [hzero]
    decide
  · have := (Nat.log2_lt hzero).2 hlt
    omega

theorem exists_searchable {code : Nat} (hpos : 0 < code) (hfin : code < Format.double.infinityCode) :
    ∃ room, (intervalOf .double code).Searchable (2 * Format.double.one) room
      (leadingExponent .double (intervalOf .double code).value) := by
  obtain ⟨r, shift, h, rfl⟩ := Format.double.exists_aligned_code code
  obtain ⟨hlow, hvalue, hhigh⟩ := intervalOf_aligned h hpos
  have hvaluepos : 0 < 2 * (r * 2 ^ shift) :=
    Nat.mul_pos (by decide) (Nat.mul_pos (h.digits_pos hpos) (Nat.two_pow_pos _))
  have hrooms : 2 * (r * 2 ^ shift) < 2 ^ 54 * 2 ^ shift := by
    rw [← mul_assoc]
    apply Nat.mul_lt_mul_of_pos_right _ (Nat.two_pow_pos _)
    have hdigits : r < 2 ^ 53 := h.digits
    omega
  obtain ⟨hstart, hstop⟩ := leadingExponent_bounds hvaluepos (log2_value_lt h hfin)
  rw [← hvalue] at hstart hstop hrooms hhigh
  exact ⟨2 ^ shift, hlow, Nat.mul_pos (by decide) (Binary.one_pos _), hhigh, hrooms, hstart, hstop⟩

/-- **Eighteen digits are enough** for the shortest decimal of a Number. -/
theorem length_digits_le {code : Nat} (hpos : 0 < code) (hfin : code < Format.double.infinityCode) :
    (shortest .double code).digits.length ≤ 18 := by
  obtain ⟨room, h⟩ := exists_searchable hpos hfin
  rw [digits, Nat.length_toDigits_le_iff (by decide) (by decide)]
  exact h.coefficient_search_lt

theorem exponent_search_bounds (i : Interval) (half fuel : Nat) (e : Int) :
    e - fuel ≤ (i.search half fuel e).exponent ∧ (i.search half fuel e).exponent ≤ e := by
  induction fuel generalizing e with
  | zero =>
    rw [Interval.search, Nat.cast_zero, sub_zero]
    exact ⟨le_rfl, le_rfl⟩
  | succ fuel ih =>
    rw [Interval.search]
    cases i.hit? half e with
    | some c => exact ⟨by dsimp only; omega, le_rfl⟩
    | none =>
      have := ih (e - 1)
      dsimp only
      omega

/-- the exponent of a shortest decimal is small -/
theorem exponent_shortest_bounds {code : Nat} (hpos : 0 < code) (hfin : code < Format.double.infinityCode) :
    -400 < (shortest .double code).exponent ∧ (shortest .double code).exponent < 400 := by
  have hlog : (intervalOf .double code).value.log2 < 2101 := by
    obtain ⟨r, shift, h, rfl⟩ := Format.double.exists_aligned_code code
    rw [(intervalOf_aligned h hpos).2.1]
    exact log2_value_lt h hfin
  have hscale : Format.double.scale = 1074 := by decide
  have hsearch := exponent_search_bounds (intervalOf .double code) (2 * Format.double.one)
    (Format.double.fractionBits + 5) (leadingExponent .double (intervalOf .double code).value)
  have hfuel : Format.double.fractionBits + 5 = 57 := rfl
  rw [leadingExponent, hscale, hfuel] at hsearch
  rw [shortest, leadingExponent, hscale, hfuel]
  omega

/-- what lies in the interval of a magnitude is rounded to it -/
theorem codeOf_eq_of_holds (hf : 0 < f.fractionBits) {code num den : Nat} (hden : 0 < den) (hpos : 0 < code)
    (hfin : code < f.infinityCode) (h : (intervalOf f code).holds (2 * num) den = true) : f.codeOf num den = code := by
  unfold Interval.holds at h
  split_ifs at h with hclosed
  · rw [Bool.and_eq_true, decide_eq_true_iff, decide_eq_true_iff] at h
    refine Format.codeOf_eq_of_near hf hden hpos hfin h.1 h.2 fun hodd => ?_
    have heven : code % 2 = 0 := of_decide_eq_true hclosed
    omega
  · rw [Bool.and_eq_true, decide_eq_true_iff, decide_eq_true_iff] at h
    exact Format.codeOf_eq_of_near hf hden hpos hfin h.1.le h.2.le fun _ => h

/-- **The shortest decimal reads back**: it is rounded to the magnitude that it stands for. -/
theorem codeOf_shortest {code : Nat} (hpos : 0 < code) (hfin : code < Format.double.infinityCode) :
    Format.double.codeOf ((shortest .double code).coefficient * tenPow (shortest .double code).exponent.toNat *
      Format.double.one) (tenPow (-(shortest .double code).exponent).toNat) = code := by
  obtain ⟨room, h⟩ := exists_searchable hpos hfin
  have hnum : ∀ c p : Nat, 2 * (c * p * Format.double.one) = c * (2 * Format.double.one * p) := by
    intro c p
    ring
  refine codeOf_eq_of_holds (by decide) (Interval.tenPow_pos _) hpos hfin ?_
  rw [hnum]
  exact h.holds_search

end Decimal

end Vector128
