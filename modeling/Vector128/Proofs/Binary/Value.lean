/-
What values denote: a number, an infinity, or nothing.

A finite value is a rational number, its units over those of one (`Binary.value`). With an infinity at each end the
numbers are one linear order (`Extended`), in which every value has a place but NaN (`Binary.number?`). The order by rank
is the order there (`Binary.extended_lt_iff`), values are the same exactly if they have the same place or none at all
(`Binary.sameValue_iff`), and a conversion to a larger format keeps the place (`Binary.number?_convert`). Dropping the
fraction of a value rounds its number towards zero (`Binary.truncate?_eq_some_iff`).
-/
import Vector128.Proofs.Number.Index

namespace Vector128

/-- the rational numbers with an infinity at each end -/
abbrev Extended := WithBot (WithTop ℚ)

def Extended.ofRat (q : ℚ) : Extended := ((q : WithTop ℚ) : Extended)

namespace Extended

variable {p q : ℚ}

theorem ofRat_lt_iff : ofRat p < ofRat q ↔ p < q := by
  rw [ofRat, ofRat, WithBot.coe_lt_coe, WithTop.coe_lt_coe]

theorem ofRat_inj : ofRat p = ofRat q ↔ p = q := by
  rw [ofRat, ofRat, WithBot.coe_inj, WithTop.coe_inj]

theorem ofRat_lt_top (q : ℚ) : ofRat q < ⊤ := WithBot.coe_lt_coe.2 (WithTop.coe_lt_top q)

theorem bot_lt_ofRat (q : ℚ) : ⊥ < ofRat q := WithBot.bot_lt_coe _

end Extended

/-- a number without its fraction -/
def towardZero (q : ℚ) : Int := if 0 ≤ q then ⌊q⌋ else ⌈q⌉

theorem towardZero_intCast (n : Int) : towardZero n = n := by
  unfold towardZero
  split_ifs
  · exact Int.floor_intCast n
  · exact Int.ceil_intCast n

theorem towardZero_div (n : Int) {d : Nat} (hd : 0 < d) : towardZero ((n : ℚ) / d) = n.tdiv d := by
  have hpos : (0 : ℚ) < d := Nat.cast_pos.2 hd
  unfold towardZero
  rcases le_or_gt 0 n with hn | hn
  · rw [if_pos (div_nonneg (Int.cast_nonneg hn) hpos.le), Rat.floor_intCast_div_natCast,
      Int.tdiv_eq_ediv_of_nonneg hn]
  · have hneg : (n : ℚ) / d < 0 := div_neg_of_neg_of_pos (Int.cast_lt_zero.2 hn) hpos
    have hneg' : (n : ℚ) / d = -(((-n : Int) : ℚ) / d) := by
      push_cast
      ring
    rw [if_neg (not_le.2 hneg), hneg', Int.ceil_neg, Rat.floor_intCast_div_natCast,
      ← Int.tdiv_eq_ediv_of_nonneg (by omega), Int.neg_tdiv, neg_neg]

namespace Binary

variable {f g : Format} {x y : Binary f} {n : Int}

/-- the number that a finite value is -/
def value (x : Binary f) : ℚ := x.units / f.one

def extended (x : Binary f) : Extended :=
  if x.isInfinite then if x.negative then ⊥ else ⊤
  else .ofRat x.value

/-- the place of a value in the order of numbers and infinities; NaN has none -/
def number? (x : Binary f) : Option Extended := if x.isNaN then none else some x.extended

theorem one_cast_pos (f : Format) : (0 : ℚ) < f.one := Nat.cast_pos.2 (one_pos f)

theorem value_lt_iff : x.value < y.value ↔ x.units < y.units := by
  rw [value, value, div_lt_div_iff_of_pos_right (one_cast_pos f), Int.cast_lt]

theorem extended_of_isFinite (hx : x.isFinite = true) : x.extended = .ofRat x.value := by
  rw [extended, isInfinite_of_isFinite hx, if_neg Bool.false_ne_true]

theorem extended_of_isInfinite (hx : x.isInfinite = true) : x.extended = if x.negative then ⊥ else ⊤ := by
  rw [extended, if_pos hx]

theorem number?_of_isFinite (hx : x.isFinite = true) : x.number? = some (.ofRat x.value) := by
  rw [number?, isNaN_of_isFinite hx, if_neg Bool.false_ne_true, extended_of_isFinite hx]

theorem number?_of_not_isNaN (hx : x.isNaN = false) : x.number? = some x.extended := by
  rw [number?, hx, if_neg Bool.false_ne_true]

theorem number?_eq_none_iff : x.number? = none ↔ x.isNaN = true := by
  rw [number?]
  split_ifs with hx
  · exact iff_of_true rfl hx
  · exact ⟨nofun, fun h => absurd h hx⟩

theorem number?_eq_ofRat_iff {q : ℚ} : x.number? = some (.ofRat q) ↔ x.isFinite = true ∧ x.value = q := by
  constructor
  · intro h
    have hnan : x.isNaN = false := by
      rw [Bool.eq_false_iff, ne_eq, ← number?_eq_none_iff, h]
      exact Option.some_ne_none _
    rw [number?_of_not_isNaN hnan, Option.some.injEq] at h
    cases hinf : x.isInfinite with
    | true =>
      rw [extended_of_isInfinite hinf] at h
      split_ifs at h
      · exact absurd h (Extended.bot_lt_ofRat q).ne
      · exact absurd h (Extended.ofRat_lt_top q).ne'
    | false =>
      have hfin := x.isFinite_of_not hnan hinf
      rw [extended_of_isFinite hfin, Extended.ofRat_inj] at h
      exact ⟨hfin, h⟩
  · rintro ⟨hfin, rfl⟩
    exact number?_of_isFinite hfin

/-! ## Order -/

theorem rank_of_isInfinite (hx : x.isInfinite = true) :
    x.rank = if x.negative then -(f.infinityCode : Int) else f.infinityCode := by
  have hcode : x.code.toNat = f.infinityCode := of_decide_eq_true hx
  rw [rank, hcode]

theorem rank_bounds (hx : x.isFinite = true) : -(f.infinityCode : Int) < x.rank ∧ x.rank < f.infinityCode := by
  have hcode : x.code.toNat < f.infinityCode := of_decide_eq_true hx
  rw [rank]
  split_ifs <;> omega

/-- **The order by rank is the order of numbers and infinities**, of all values but NaN. -/
theorem extended_lt_iff (he : 2 ≤ f.exponentBits) (hx : x.isNaN = false) (hy : y.isNaN = false) :
    x.extended < y.extended ↔ x.rank < y.rank := by
  have hpos : 0 < f.infinityCode := f.infinityCode_pos he
  cases hxi : x.isInfinite with
  | false =>
    have hxf := x.isFinite_of_not hx hxi
    obtain ⟨hxlow, hxhigh⟩ := rank_bounds hxf
    rw [extended_of_isFinite hxf]
    cases hyi : y.isInfinite with
    | false =>
      rw [extended_of_isFinite (y.isFinite_of_not hy hyi), Extended.ofRat_lt_iff, value_lt_iff, rank_lt_iff]
    | true =>
      rw [extended_of_isInfinite hyi, rank_of_isInfinite hyi]
      split_ifs
      · exact iff_of_false not_lt_bot (by omega)
      · exact iff_of_true (Extended.ofRat_lt_top _) (by omega)
  | true =>
    rw [extended_of_isInfinite hxi, rank_of_isInfinite hxi]
    cases hyi : y.isInfinite with
    | false =>
      have hyf := y.isFinite_of_not hy hyi
      obtain ⟨hylow, hyhigh⟩ := rank_bounds hyf
      rw [extended_of_isFinite hyf]
      split_ifs
      · exact iff_of_true (Extended.bot_lt_ofRat _) (by omega)
      · exact iff_of_false not_top_lt (by omega)
    | true =>
      rw [extended_of_isInfinite hyi, rank_of_isInfinite hyi]
      split_ifs
      · exact iff_of_false (lt_irrefl _) (lt_irrefl _)
      · exact iff_of_true bot_lt_top (by omega)
      · exact iff_of_false not_top_lt (by omega)
      · exact iff_of_false (lt_irrefl _) (lt_irrefl _)

theorem extended_eq_iff (he : 2 ≤ f.exponentBits) (hx : x.isNaN = false) (hy : y.isNaN = false) :
    x.extended = y.extended ↔ x.rank = y.rank := by
  rw [← not_iff_not, ← ne_eq, ← ne_eq, ← lt_or_lt_iff_ne, ← lt_or_lt_iff_ne, extended_lt_iff he hx hy,
    extended_lt_iff he hy hx]

/-- **Values are the same exactly if they have the same place**, or none at all. -/
theorem sameValue_iff (he : 2 ≤ f.exponentBits) : x.sameValue y = true ↔ x.number? = y.number? := by
  cases hx : x.isNaN with
  | true =>
    rw [number?_eq_none_iff.2 hx, @eq_comm _ none, number?_eq_none_iff, sameValue, equal, unordered, hx]
    simp
  | false =>
    cases hy : y.isNaN with
    | true =>
      rw [number?_eq_none_iff.2 hy, number?_eq_none_iff, hx, sameValue, equal, unordered, hx, hy]
      simp
    | false =>
      rw [number?_of_not_isNaN hx, number?_of_not_isNaN hy, Option.some.injEq, extended_eq_iff he hx hy, sameValue, equal,
        unordered, hx, hy]
      simp

/-! ## Conversions -/

theorem denotes_iff : x.Denotes n ↔ x.number? = some (.ofRat n) := by
  rw [number?_eq_ofRat_iff, value, div_eq_iff (one_cast_pos f).ne']
  constructor
  · rintro ⟨hfin, hunits⟩
    exact ⟨hfin, by exact_mod_cast hunits⟩
  · rintro ⟨hfin, hunits⟩
    exact ⟨hfin, by exact_mod_cast hunits⟩

/-- **A value without its fraction** is its number rounded towards zero. -/
theorem truncate?_eq_some_iff : x.truncate? = some n ↔ ∃ q, x.number? = some (.ofRat q) ∧ towardZero q = n := by
  have htdiv : towardZero x.value = x.units.tdiv f.one := towardZero_div _ (one_pos f)
  rw [truncate?]
  split_ifs with hfin
  · rw [Option.some.injEq, ← htdiv, number?_of_isFinite hfin]
    constructor
    · intro h
      exact ⟨x.value, rfl, h⟩
    · rintro ⟨q, hq, h⟩
      rw [Option.some.injEq, Extended.ofRat_inj] at hq
      rw [hq, h]
  · refine iff_of_false not_false ?_
    rintro ⟨q, hq, -⟩
    exact hfin (number?_eq_ofRat_iff.1 hq).1

/-- **A conversion to a larger format keeps the number**, or the infinity. -/
theorem number?_convert (h : f.Embeds g) (hf : 2 ≤ f.exponentBits) (hg : 2 ≤ g.exponentBits)
    (hfraction : 0 < g.fractionBits) (x : Binary f) : (x.convert : Binary g).number? = x.number? := by
  cases hn : x.isNaN with
  | true => rw [number?_eq_none_iff.2 hn, number?_eq_none_iff, isNaN_convert hfraction, hn]
  | false =>
    cases hi : x.isInfinite with
    | true =>
      rw [number?_of_not_isNaN hn, extended_of_isInfinite hi, eq_infinity hi, convert_infinity,
        number?_of_not_isNaN (isNaN_infinity _), extended_of_isInfinite (isInfinite_infinity _)]
      rfl
    | false =>
      have hfin := x.isFinite_of_not hn hi
      obtain ⟨hfinite, hsign, hunits⟩ := convert_exact h hf hg hfin
      have hunits' : (x.convert : Binary g).units = x.units * (2 ^ (g.scale - f.scale) : Nat) := by
        rw [(x.convert : Binary g).units_eq_natAbs, hsign, hunits, Nat.cast_mul, ← neg_mul, ← ite_mul,
          ← x.units_eq_natAbs]
      have hvalue : (x.convert : Binary g).value = x.value := by
        have hpow : ((2 ^ (g.scale - f.scale) : Nat) : ℚ) ≠ 0 := by positivity
        rw [value, value, hunits', h.one_eq, Int.cast_mul, Int.cast_natCast, Nat.cast_mul, mul_comm,
          mul_div_mul_left _ _ hpow]
      rw [number?_of_isFinite hfinite, number?_of_isFinite hfin, hvalue]

/-- an integer that a format has is rounded to another format as the integer -/
theorem convert_ofInt (h : (ofInt n : Binary f).Denotes n) :
    ((ofInt n : Binary f).convert : Binary g) = ofInt n := by
  have hnum : (ofInt n : Binary f).units.natAbs * g.one = n.natAbs * g.one * f.one := by
    rw [h.units, Int.natAbs_mul, Int.natAbs_natCast, mul_right_comm]
  have hcode : g.codeOf (n.natAbs * g.one * f.one) f.one = g.codeOf (n.natAbs * g.one) 1 := by
    rw [← g.codeOf_mul_right _ 1 (one_pos f), Nat.one_mul]
  rw [convert, isNaN_of_isFinite h.finite, h.isInfinite, if_neg Bool.false_ne_true, if_neg Bool.false_ne_true, hnum,
    ofUnits, hcode]
  rfl

end Binary

end Vector128
