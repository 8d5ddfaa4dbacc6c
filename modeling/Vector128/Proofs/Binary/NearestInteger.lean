/-
The integer nearest to a number, and of two that are equally near the even one.

An integer is the nearest one exactly if it is within a half of the number, and even if it is a half away
(`nearestInteger_iff`). So a greater number has no smaller nearest integer (`NearestInteger.mono`). A quotient of
natural numbers is rounded to it (`nearestInteger_divRoundEven`).
-/
import Mathlib.Tactic
import Vector128.Binary.Format

namespace Vector128

/-- The integer is the nearest one to a number. Of two that are equally near, it is the even one. -/
structure NearestInteger (q : ℚ) (n : Int) : Prop where
  nearest : ∀ m : Int, |(n : ℚ) - q| ≤ |(m : ℚ) - q|
  even : ∀ m : Int, |(n : ℚ) - q| = |(m : ℚ) - q| → m = n ∨ n % 2 = 0

variable {p q : ℚ} {n m : Int}

theorem half_le_abs_sub (h : |(n : ℚ) - q| ≤ 1 / 2) (hne : m ≠ n) : 1 / 2 ≤ |(m : ℚ) - q| := by
  have hstep : (1 : ℚ) ≤ |(m : ℚ) - n| := by
    have : (1 : Int) ≤ |m - n| := Int.one_le_abs (sub_ne_zero.2 hne)
    exact_mod_cast this
  have htriangle := abs_sub_le (m : ℚ) q n
  rw [abs_sub_comm q] at htriangle
  linarith

/-- **Nearest is within a half**, and even at a half. -/
theorem nearestInteger_iff : NearestInteger q n ↔ |(n : ℚ) - q| ≤ 1 / 2 ∧ (|(n : ℚ) - q| = 1 / 2 → n % 2 = 0) := by
  constructor
  · intro h
    -- the integers next to the number are at most one apart, so one of them is within a half
    have hbelow : |(⌊q⌋ : ℚ) - q| = q - ⌊q⌋ := by
      rw [abs_of_nonpos (by linarith [Int.floor_le q])]
      ring
    have habove : |((⌊q⌋ + 1 : Int) : ℚ) - q| = ⌊q⌋ + 1 - q := by
      push_cast
      exact abs_of_nonneg (by linarith [Int.lt_floor_add_one q])
    have hfloor := h.nearest ⌊q⌋
    have hceil := h.nearest (⌊q⌋ + 1)
    rw [hbelow] at hfloor
    rw [habove] at hceil
    refine ⟨by linarith, fun hhalf => ?_⟩
    rcases h.even ⌊q⌋ (by rw [hbelow]; linarith) with heq | heven
    · rcases h.even (⌊q⌋ + 1) (by rw [habove]; linarith) with heq' | heven
      · omega
      · exact heven
    · exact heven
  · rintro ⟨hhalf, heven⟩
    refine ⟨fun m => ?_, fun m hm => ?_⟩
    · by_cases hne : m = n
      · rw [hne]
      · exact hhalf.trans (half_le_abs_sub hhalf hne)
    · by_cases hne : m = n
      · exact Or.inl hne
      · exact Or.inr (heven (le_antisymm hhalf (hm ▸ half_le_abs_sub hhalf hne)))

/-- **A greater number has no smaller nearest integer.** -/
theorem NearestInteger.mono (hn : NearestInteger p n) (hm : NearestInteger q m) (h : p ≤ q) : n ≤ m := by
  obtain ⟨hp, hpeven⟩ := nearestInteger_iff.1 hn
  obtain ⟨hq, hqeven⟩ := nearestInteger_iff.1 hm
  by_contra hlt
  have hstep : (m : ℚ) + 1 ≤ n := by exact_mod_cast (show m + 1 ≤ n by omega)
  have hp' := (abs_le.1 hp).2
  have hq' := (abs_le.1 hq).1
  -- both numbers are the middle between two neighbours, which would both be even
  have hneighbours : n = m + 1 := by
    have : (n : ℚ) = m + 1 := by linarith
    exact_mod_cast this
  have hneven := hpeven (by rw [abs_of_nonneg] <;> linarith)
  have hmeven := hqeven (by rw [abs_of_nonpos] <;> linarith)
  omega

theorem nearestInteger_intCast (n : Int) : NearestInteger n n := by
  rw [nearestInteger_iff, sub_self, abs_zero]
  exact ⟨by norm_num, fun h => absurd h (by norm_num)⟩

/-- a quotient is rounded to an integer within a half of it, and an odd one is nearer than a half -/
theorem divRoundEven_near (n : Nat) {d : Nat} (hd : 0 < d) :
    2 * (divRoundEven n d * d) ≤ 2 * n + d ∧ 2 * n ≤ 2 * (divRoundEven n d * d) + d ∧
      (divRoundEven n d % 2 = 1 →
        2 * (divRoundEven n d * d) < 2 * n + d ∧ 2 * n < 2 * (divRoundEven n d * d) + d) := by
  have hsplit : n / d * d + n % d = n := by rw [Nat.mul_comm, Nat.div_add_mod]
  have hmod := Nat.mod_lt n hd
  simp only [divRoundEven]
  split_ifs <;> simp only [Nat.succ_mul] <;> omega

/-- **A quotient is rounded to the nearest integer.** -/
theorem nearestInteger_divRoundEven (n : Nat) {d : Nat} (hd : 0 < d) :
    NearestInteger ((n : ℚ) / d) (divRoundEven n d : Nat) := by
  obtain ⟨hlow, hhigh, hodd⟩ := divRoundEven_near n hd
  generalize divRoundEven n d = r at hlow hhigh hodd
  have hpos : (0 : ℚ) < d := Nat.cast_pos.2 hd
  have hdist : |((r : Int) : ℚ) - n / d| = |(r : ℚ) * d - n| / d := by
    have hquotient : ((r : Int) : ℚ) - n / d = (r * d - n) / d := by
      push_cast
      field_simp
    rw [hquotient, abs_div, abs_of_pos hpos]
  rw [nearestInteger_iff, hdist, div_le_iff₀ hpos, div_eq_iff hpos.ne']
  refine ⟨abs_le.2 ⟨?_, ?_⟩, fun hhalf => ?_⟩
  · have : (2 * n : ℚ) ≤ 2 * (r * d) + d := by exact_mod_cast hhigh
    linarith
  · have : (2 * (r * d) : ℚ) ≤ 2 * n + d := by exact_mod_cast hlow
    linarith
  · by_contra heven
    obtain ⟨hbelow, habove⟩ := hodd (by omega)
    have hbelow' : (2 * (r * d) : ℚ) < 2 * n + d := by exact_mod_cast hbelow
    have habove' : (2 * n : ℚ) < 2 * (r * d) + d := by exact_mod_cast habove
    rcases abs_cases ((r : ℚ) * d - n) with ⟨habs, -⟩ | ⟨habs, -⟩ <;> linarith

end Vector128
