/-
Extrema as a lattice of numbers, with NaN outside of it.

A number has a place: the number or infinity that it is, and of two zeros the negative one comes first (`Binary.place`).
No two values that are numbers share a place (`Binary.eq_of_place_eq`), so the places are a total order of bit patterns,
and it is the order that the extrema go by (`Binary.below_iff`). Among numbers `minimum` is the first of two places
(`Binary.place_minimum`), and the laws of a minimum carry over. A NaN wins or loses by where it stands: the first one is
the result of `minimum`, and `minimumNumber` gives the operand that is left. The greater of two is the lesser seen from
the other side (`Binary.maximum_eq_neg`), so whatever holds of minima holds of maxima.
-/
import Mathlib.Data.Prod.Lex
import Vector128.Binary.Extremum
import Vector128.Proofs.Binary.Value

namespace Vector128.Binary

variable {f : Format} {x y z : Binary f}

/-- the place of a value that is no NaN: what it is in the order of numbers and infinities, a negative zero before the
positive one -/
def place (x : Binary f) : Extended ×ₗ Bool := toLex (x.extended, !x.negative)

/-- **No two numbers share a place.** -/
theorem eq_of_place_eq (he : 2 ≤ f.exponentBits) (hx : x.isNaN = false) (hy : y.isNaN = false)
    (h : x.place = y.place) : x = y := by
  obtain ⟨hextended, hsign⟩ := Prod.mk.inj (toLex_inj.1 h)
  exact eq_of_rank_eq ((extended_eq_iff he hx hy).1 hextended) (Bool.not_inj_iff.1 hsign)

/-- **The extrema go by the order of places.** -/
theorem below_iff (he : 2 ≤ f.exponentBits) (hx : x.isNaN = false) (hy : y.isNaN = false) :
    below x y = true ↔ x.place < y.place := by
  rw [place, place, Prod.Lex.toLex_lt_toLex, extended_lt_iff he hx hy, extended_eq_iff he hx hy, below]
  simp only [Bool.or_eq_true, Bool.and_eq_true, decide_eq_true_eq, Bool.lt_iff, Bool.not_eq_true', Bool.not_eq_false',
    and_assoc]

/-! ## The lesser of two -/

theorem minimum_of_isNaN_left (hx : x.isNaN = true) (y : Binary f) : minimum x y = x := by
  rw [minimum, if_pos hx]

theorem minimum_of_isNaN_right (hx : x.isNaN = false) (hy : y.isNaN = true) : minimum x y = y := by
  rw [minimum, hx, if_neg Bool.false_ne_true, if_pos hy]

theorem minimum_of_numbers (hx : x.isNaN = false) (hy : y.isNaN = false) :
    minimum x y = if below x y then x else y := by
  rw [minimum, hx, hy, if_neg Bool.false_ne_true, if_neg Bool.false_ne_true]

theorem isNaN_minimum (x y : Binary f) : (minimum x y).isNaN = (x.isNaN || y.isNaN) := by
  cases hx : x.isNaN with
  | true => rw [minimum_of_isNaN_left hx, hx, Bool.true_or]
  | false =>
    cases hy : y.isNaN with
    | true => rw [minimum_of_isNaN_right hx hy, hy, Bool.or_true]
    | false =>
      rw [minimum_of_numbers hx hy]
      split_ifs
      · exact hx
      · exact hy

theorem isNaN_minimum_of_numbers (hx : x.isNaN = false) (hy : y.isNaN = false) : (minimum x y).isNaN = false := by
  rw [isNaN_minimum, hx, hy, Bool.or_false]

theorem minimum_of_place_le (he : 2 ≤ f.exponentBits) (hx : x.isNaN = false) (hy : y.isNaN = false)
    (h : x.place ≤ y.place) : minimum x y = x := by
  rw [minimum_of_numbers hx hy]
  split_ifs with hbelow
  · rfl
  · rw [below_iff he hx hy, not_lt] at hbelow
    exact eq_of_place_eq he hy hx (le_antisymm hbelow h)

theorem minimum_of_place_ge (he : 2 ≤ f.exponentBits) (hx : x.isNaN = false) (hy : y.isNaN = false)
    (h : y.place ≤ x.place) : minimum x y = y := by
  rw [minimum_of_numbers hx hy, if_neg]
  rw [below_iff he hx hy, not_lt]
  exact h

/-- **The lesser of two numbers has the first of their places.** -/
theorem place_minimum (he : 2 ≤ f.exponentBits) (hx : x.isNaN = false) (hy : y.isNaN = false) :
    (minimum x y).place = min x.place y.place := by
  rcases le_total x.place y.place with h | h
  · rw [minimum_of_place_le he hx hy h, min_eq_left h]
  · rw [minimum_of_place_ge he hx hy h, min_eq_right h]

theorem minimum_comm (he : 2 ≤ f.exponentBits) (hx : x.isNaN = false) (hy : y.isNaN = false) :
    minimum x y = minimum y x := by
  refine eq_of_place_eq he (isNaN_minimum_of_numbers hx hy) (isNaN_minimum_of_numbers hy hx) ?_
  rw [place_minimum he hx hy, place_minimum he hy hx, min_comm]

/-- the first NaN of three stays, and numbers are ordered by their places -/
theorem minimum_assoc (he : 2 ≤ f.exponentBits) (x y z : Binary f) :
    minimum (minimum x y) z = minimum x (minimum y z) := by
  cases hx : x.isNaN with
  | true => rw [minimum_of_isNaN_left hx, minimum_of_isNaN_left hx, minimum_of_isNaN_left hx]
  | false =>
    cases hy : y.isNaN with
    | true =>
      rw [minimum_of_isNaN_right hx hy, minimum_of_isNaN_left hy, minimum_of_isNaN_right hx hy]
    | false =>
      have hxy := isNaN_minimum_of_numbers hx hy
      cases hz : z.isNaN with
      | true =>
        rw [minimum_of_isNaN_right hxy hz, minimum_of_isNaN_right hy hz, minimum_of_isNaN_right hx hz]
      | false =>
        have hyz := isNaN_minimum_of_numbers hy hz
        refine eq_of_place_eq he (isNaN_minimum_of_numbers hxy hz) (isNaN_minimum_of_numbers hx hyz) ?_
        rw [place_minimum he hxy hz, place_minimum he hx hy, place_minimum he hx hyz, place_minimum he hy hz, min_assoc]

theorem minimumNumber_of_isNaN_left (hx : x.isNaN = true) (y : Binary f) : minimumNumber x y = y := by
  rw [minimumNumber, if_pos hx]

theorem minimumNumber_of_isNaN_right (hx : x.isNaN = false) (hy : y.isNaN = true) : minimumNumber x y = x := by
  rw [minimumNumber, hx, if_neg Bool.false_ne_true, if_pos hy]

theorem minimumNumber_of_numbers (hx : x.isNaN = false) (hy : y.isNaN = false) : minimumNumber x y = minimum x y := by
  rw [minimumNumber, hx, hy, if_neg Bool.false_ne_true, if_neg Bool.false_ne_true]

theorem isNaN_minimumNumber (x y : Binary f) : (minimumNumber x y).isNaN = (x.isNaN && y.isNaN) := by
  cases hx : x.isNaN with
  | true => rw [minimumNumber_of_isNaN_left hx, Bool.true_and]
  | false =>
    cases hy : y.isNaN with
    | true => rw [minimumNumber_of_isNaN_right hx hy, hx, Bool.false_and]
    | false => rw [minimumNumber_of_numbers hx hy, isNaN_minimum_of_numbers hx hy, Bool.and_false]

/-- a NaN among three drops out -/
theorem minimumNumber_assoc (he : 2 ≤ f.exponentBits) (x y z : Binary f) :
    minimumNumber (minimumNumber x y) z = minimumNumber x (minimumNumber y z) := by
  cases hx : x.isNaN with
  | true => rw [minimumNumber_of_isNaN_left hx, minimumNumber_of_isNaN_left hx]
  | false =>
    cases hy : y.isNaN with
    | true => rw [minimumNumber_of_isNaN_right hx hy, minimumNumber_of_isNaN_left hy]
    | false =>
      have hxy := isNaN_minimum_of_numbers hx hy
      rw [minimumNumber_of_numbers hx hy]
      cases hz : z.isNaN with
      | true =>
        rw [minimumNumber_of_isNaN_right hxy hz, minimumNumber_of_isNaN_right hy hz, minimumNumber_of_numbers hx hy]
      | false =>
        have hyz := isNaN_minimum_of_numbers hy hz
        rw [minimumNumber_of_numbers hxy hz, minimumNumber_of_numbers hy hz, minimumNumber_of_numbers hx hyz,
          minimum_assoc he]

/-! ## The greater of two -/

theorem neg_neg_eq (x : Binary f) : x.neg.neg = x := by
  rw [neg, neg, Bool.not_not]

theorem isNaN_neg (x : Binary f) : x.neg.isNaN = x.isNaN := rfl

theorem rank_neg (x : Binary f) : x.neg.rank = -x.rank := by
  obtain ⟨negative, code⟩ := x
  cases negative with
  | false => rfl
  | true => exact (neg_neg _).symm

theorem below_neg (x y : Binary f) : below x.neg y.neg = below y x := by
  have hlt : -x.rank < -y.rank ↔ y.rank < x.rank := neg_lt_neg_iff
  have heq : -x.rank = -y.rank ↔ y.rank = x.rank := neg_inj.trans eq_comm
  rw [below, below, rank_neg, rank_neg, decide_eq_decide.2 hlt, decide_eq_decide.2 heq, neg, neg, Bool.not_not,
    Bool.and_assoc, Bool.and_assoc, Bool.and_comm (!x.negative)]

/-- **The greater of two is the lesser seen from the other side**, bit by bit and whatever the operands are. -/
theorem maximum_eq_neg (x y : Binary f) : maximum x y = (minimum x.neg y.neg).neg := by
  rw [maximum, minimum, isNaN_neg, isNaN_neg, below_neg]
  split_ifs <;> rw [neg_neg_eq]

theorem maximumNumber_eq_neg (x y : Binary f) : maximumNumber x y = (minimumNumber x.neg y.neg).neg := by
  rw [maximumNumber, minimumNumber, isNaN_neg, isNaN_neg, maximum_eq_neg, apply_ite neg, apply_ite neg, neg_neg_eq,
    neg_neg_eq]

theorem place_neg_le (he : 2 ≤ f.exponentBits) (hx : x.isNaN = false) (hy : y.isNaN = false) :
    x.neg.place ≤ y.neg.place ↔ y.place ≤ x.place := by
  rw [← not_lt, ← not_lt, ← below_iff he hx hy, ← below_iff he (y.isNaN_neg.trans hy) (x.isNaN_neg.trans hx),
    below_neg]

theorem maximum_of_place_le (he : 2 ≤ f.exponentBits) (hx : x.isNaN = false) (hy : y.isNaN = false)
    (h : x.place ≤ y.place) : maximum x y = y := by
  rw [maximum_eq_neg, minimum_of_place_ge he (x.isNaN_neg.trans hx) (y.isNaN_neg.trans hy)
    ((place_neg_le he hy hx).2 h), neg_neg_eq]

theorem maximum_comm (he : 2 ≤ f.exponentBits) (hx : x.isNaN = false) (hy : y.isNaN = false) :
    maximum x y = maximum y x := by
  rw [maximum_eq_neg, maximum_eq_neg, minimum_comm he (x.isNaN_neg.trans hx) (y.isNaN_neg.trans hy)]

theorem maximumNumber_of_numbers (hx : x.isNaN = false) (hy : y.isNaN = false) : maximumNumber x y = maximum x y := by
  rw [maximumNumber, hx, hy, if_neg Bool.false_ne_true, if_neg Bool.false_ne_true]

/-! ## All four -/

def extrema : List (Binary f → Binary f → Binary f) := [minimum, maximum, minimumNumber, maximumNumber]

/-- what is associative is so seen from the other side -/
theorem assoc_of_eq_neg {low high : Binary f → Binary f → Binary f} (h : ∀ x y, high x y = (low x.neg y.neg).neg)
    (hassoc : ∀ x y z, low (low x y) z = low x (low y z)) (x y z : Binary f) :
    high (high x y) z = high x (high y z) := by
  rw [h, h x y, h x, h y z, neg_neg_eq, neg_neg_eq, hassoc]

theorem extrema_assoc (he : 2 ≤ f.exponentBits) (x y z : Binary f) :
    ∀ op ∈ extrema, op (op x y) z = op x (op y z) := by
  simp only [extrema, List.forall_mem_cons, List.not_mem_nil, false_implies, implies_true, and_true]
  exact ⟨minimum_assoc he x y z, assoc_of_eq_neg maximum_eq_neg (minimum_assoc he) x y z, minimumNumber_assoc he x y z,
    assoc_of_eq_neg maximumNumber_eq_neg (minimumNumber_assoc he) x y z⟩

/-- the extrema of two numbers, seen from the one that comes first -/
theorem extrema_of_place_le (he : 2 ≤ f.exponentBits) (hx : x.isNaN = false) (hy : y.isNaN = false)
    (h : x.place ≤ y.place) :
    minimum x y = x ∧ maximum x y = y ∧ minimumNumber x y = x ∧ maximumNumber x y = y := by
  have hmin := minimum_of_place_le he hx hy h
  have hmax := maximum_of_place_le he hx hy h
  exact ⟨hmin, hmax, (minimumNumber_of_numbers hx hy).trans hmin, (maximumNumber_of_numbers hx hy).trans hmax⟩

/-- a NaN is passed on by the first two, the first of two NaNs; the last two drop it for the other operand -/
theorem extrema_of_isNaN (h : (x.isNaN || y.isNaN) = true) :
    let nan := if x.isNaN then x else y
    let other := if x.isNaN then y else x
    minimum x y = nan ∧ maximum x y = nan ∧ minimumNumber x y = other ∧ maximumNumber x y = other := by
  cases hx : x.isNaN with
  | true =>
    refine ⟨minimum_of_isNaN_left hx y, ?_, minimumNumber_of_isNaN_left hx y, ?_⟩
    · rw [maximum_eq_neg, minimum_of_isNaN_left (x.isNaN_neg.trans hx), neg_neg_eq]
      rfl
    · rw [maximumNumber_eq_neg, minimumNumber_of_isNaN_left (x.isNaN_neg.trans hx), neg_neg_eq]
      rfl
  | false =>
    have hy : y.isNaN = true := by rwa [hx, Bool.false_or] at h
    refine ⟨minimum_of_isNaN_right hx hy, ?_, minimumNumber_of_isNaN_right hx hy, ?_⟩
    · rw [maximum_eq_neg, minimum_of_isNaN_right (x.isNaN_neg.trans hx) (y.isNaN_neg.trans hy), neg_neg_eq]
      rfl
    · rw [maximumNumber_eq_neg, minimumNumber_of_isNaN_right (x.isNaN_neg.trans hx) (y.isNaN_neg.trans hy), neg_neg_eq]
      rfl

theorem isNaN_maximumNumber (x y : Binary f) : (maximumNumber x y).isNaN = (x.isNaN && y.isNaN) := by
  rw [maximumNumber_eq_neg, isNaN_neg, isNaN_minimumNumber, isNaN_neg, isNaN_neg]

theorem extrema_comm (he : 2 ≤ f.exponentBits) (hx : x.isNaN = false) (hy : y.isNaN = false) :
    ∀ op ∈ extrema, op x y = op y x := by
  simp only [extrema, List.forall_mem_cons, List.not_mem_nil, false_implies, implies_true, and_true]
  rw [minimumNumber_of_numbers hx hy, minimumNumber_of_numbers hy hx, maximumNumber_of_numbers hx hy,
    maximumNumber_of_numbers hy hx, minimum_comm he hx hy, maximum_comm he hx hy]
  exact ⟨rfl, rfl, rfl, rfl⟩

/-- the order of the operands matters for nothing but which NaN the result is -/
theorem extrema_comm_or_isNaN (he : 2 ≤ f.exponentBits) (x y : Binary f) :
    ∀ op ∈ extrema, op x y = op y x ∨ (op x y).isNaN = true ∧ (op y x).isNaN = true := by
  cases hnan : (x.isNaN || y.isNaN) with
  | false =>
    obtain ⟨hx, hy⟩ := Bool.or_eq_false_iff.1 hnan
    exact fun op hop => Or.inl (extrema_comm he hx hy op hop)
  | true =>
    obtain ⟨hmin, hmax, hminNumber, hmaxNumber⟩ := extrema_of_isNaN hnan
    obtain ⟨hmin', hmax', hminNumber', hmaxNumber'⟩ := extrema_of_isNaN ((Bool.or_comm y.isNaN x.isNaN).trans hnan)
    simp only [extrema, List.forall_mem_cons, List.not_mem_nil, false_implies, implies_true, and_true]
    rw [hmin, hmax, hminNumber, hmaxNumber, hmin', hmax', hminNumber', hmaxNumber']
    cases hx : x.isNaN <;> cases hy : y.isNaN <;> simp_all

theorem minimum_maximum (he : 2 ≤ f.exponentBits) (hx : x.isNaN = false) (hy : y.isNaN = false) :
    minimum x (maximum x y) = x ∧ maximum x (minimum x y) = x := by
  have hmin : minimum x x = x := minimum_of_place_le he hx hx le_rfl
  have hmax : maximum x x = x := maximum_of_place_le he hx hx le_rfl
  rcases le_total x.place y.place with h | h
  · rw [maximum_of_place_le he hx hy h, minimum_of_place_le he hx hy h]
    exact ⟨rfl, hmax⟩
  · rw [maximum_comm he hx hy, maximum_of_place_le he hy hx h, minimum_of_place_ge he hx hy h, maximum_comm he hx hy,
      maximum_of_place_le he hy hx h]
    exact ⟨hmin, rfl⟩

/-- **The extrema are a lattice of the numbers, and NaN is at its edge.** Two numbers that share a place in the order are
one bit pattern, and of two numbers the extrema are the one that comes first and the one that comes last. A NaN is passed
on by the first two extrema, the first of two NaNs, and dropped by the last two, whose result is NaN only if both operands
are. All four are associative, and commutative but for which NaN the result is; either greater is the lesser of the
negated operands, negated. -/
theorem extrema_lattice (x y z : Single) :
    (x.isNaN = false → y.isNaN = false →
      (x.place = y.place → x = y) ∧ (x.place ≤ y.place ∨ y.place ≤ x.place) ∧
      (x.place ≤ y.place → minimum x y = x ∧ maximum x y = y ∧ minimumNumber x y = x ∧ maximumNumber x y = y) ∧
      (∀ op ∈ extrema, op x y = op y x) ∧
      minimum x (maximum x y) = x ∧ maximum x (minimum x y) = x) ∧
    ((x.isNaN || y.isNaN) = true →
      let nan := if x.isNaN then x else y
      let other := if x.isNaN then y else x
      minimum x y = nan ∧ maximum x y = nan ∧ minimumNumber x y = other ∧ maximumNumber x y = other) ∧
    (minimumNumber x y).isNaN = (x.isNaN && y.isNaN) ∧ (maximumNumber x y).isNaN = (x.isNaN && y.isNaN) ∧
    (∀ op ∈ extrema, op (op x y) z = op x (op y z) ∧
      (op x y = op y x ∨ (op x y).isNaN = true ∧ (op y x).isNaN = true)) ∧
    maximum x y = (minimum x.neg y.neg).neg ∧ maximumNumber x y = (minimumNumber x.neg y.neg).neg := by
  have he : 2 ≤ Format.single.exponentBits := by decide
  refine ⟨fun hx hy => ?_, extrema_of_isNaN, isNaN_minimumNumber x y, isNaN_maximumNumber x y, fun op hop => ?_,
    maximum_eq_neg x y, maximumNumber_eq_neg x y⟩
  · exact ⟨eq_of_place_eq he hx hy, le_total _ _, extrema_of_place_le he hx hy, extrema_comm he hx hy,
      minimum_maximum he hx hy⟩
  · exact ⟨extrema_assoc he x y z op hop, extrema_comm_or_isNaN he x y op hop⟩

/-- The negative zero comes before the positive one, and of two NaNs, which differ in sign and payload, the first is passed
on and the second is left. -/
theorem extrema_lattice_edges :
    let low : Single := .ofBits 0x80000000
    let high : Single := .ofBits 0
    let first : Single := .ofBits 0xFFC00001
    let second : Single := .ofBits 0x7F800002
    low.isNaN = false ∧ high.isNaN = false ∧ low.place ≤ high.place ∧ minimum low high = low ∧ maximum low high = high ∧
      minimum high low = low ∧ (first.isNaN || second.isNaN) = true ∧ minimum first second = first ∧
      minimumNumber first second = second := by
  intro low high first second
  have hlow : low.isNaN = false := by decide
  have hhigh : high.isNaN = false := by decide
  have hnan : (first.isNaN || second.isNaN) = true := by decide
  have hplace : low.place ≤ high.place := ((below_iff (by decide) hlow hhigh).1 (by decide)).le
  obtain ⟨-, -, hextrema, hcomm, -⟩ := (extrema_lattice low high first).1 hlow hhigh
  obtain ⟨hfirst, -, hsecond, -⟩ := (extrema_lattice first second low).2.1 hnan
  obtain ⟨hmin, hmax, -⟩ := hextrema hplace
  exact ⟨hlow, hhigh, hplace, hmin, hmax, (hcomm minimum List.mem_cons_self).symm.trans hmin, hnan, hfirst, hsecond⟩

end Vector128.Binary
