/-
Integer lanes as words: the arithmetic that wraps around is exact on the bits of a lane.

An integer lane has a stored value, with the sign of the lane width, and a visible value, with the sign of the shape.
Both have the same bits (`Shape.word`), and the stored value is the signed reading of them. Taking an integer to its low
bits (`BitVec.ofInt`) goes through every operation of `WordOp`, so it does not matter at which width, with which sign
and on which of the two values a result was computed before it is cut to the lane:
- `ofInt_onIntegers`, `ofInt_onStored`: the low bits of a result are computed from the low bits of the operands;
- `bounds_onStored`: nothing that is computed on stored lanes leaves the 64-bit integers;
- `Shape.reinterpret_lanes`: between shapes of one lane width, the lanes of a reinterpretation are the old ones.
`integer_lanes_exact` puts them together.
-/
import Vector128.Proofs.Memory.Reinterpret
import Vector128.Proofs.Number.LowBits

namespace Vector128

open Outcome

/-! ## Operations on words -/

/-- the operations whose results are cut to the lane width -/
inductive WordOp
  | add
  | sub
  | mul
  | neg
  | and
  | or
  | xor
  | not
  deriving DecidableEq, Repr

namespace WordOp

/-- on words of `n` bits; the operations of one operand look at the first only -/
def onWords {n : Nat} : WordOp → BitVec n → BitVec n → BitVec n
  | add, x, y => x + y
  | sub, x, y => x - y
  | mul, x, y => x * y
  | neg, x, _ => -x
  | and, x, y => x &&& y
  | or, x, y => x ||| y
  | xor, x, y => x ^^^ y
  | not, x, _ => ~~~x

/-- on integers, those with infinitely many bits -/
def onIntegers : WordOp → Int → Int → Int
  | add, x, y => x + y
  | sub, x, y => x - y
  | mul, x, y => x * y
  | neg, x, _ => -x
  | and, x, y => Int.land x y
  | or, x, y => Int.lor x y
  | xor, x, y => Int.xor x y
  | not, x, _ => Int.lnot x

/-- what a shape computes on stored lanes, before it cuts the result to the lane width -/
def onStored (s : Shape) : WordOp → Option (Int → Int → Int)
  | add => BinaryOp.add.onInts s
  | sub => BinaryOp.sub.onInts s
  | mul => BinaryOp.mul.onInts s
  | neg => UnaryOp.neg.onInts.map fun f x _ => f x
  | and => BinaryOp.and.onInts s
  | or => BinaryOp.or.onInts s
  | xor => BinaryOp.xor.onInts s
  | not => UnaryOp.not.onInts.map fun f x _ => f x

def run (s : Shape) (v w : Packed) : WordOp → Outcome Packed
  | add => s.binary .add v w
  | sub => s.binary .sub v w
  | mul => s.binary .mul v w
  | neg => s.unary .neg v
  | and => s.binary .and v w
  | or => s.binary .or v w
  | xor => s.binary .xor v w
  | not => s.unary .not v

variable {s : Shape} {n : Nat}

/-- every operation has a meaning on integer lanes -/
theorem onStored_exists (op : WordOp) (s : Shape) : ∃ f, op.onStored s = some f := by
  cases op <;> exact ⟨_, rfl⟩

/-- the same one for every shape -/
theorem onStored_congr (op : WordOp) (s t : Shape) : op.onStored s = op.onStored t := by
  cases op <;> rfl

/-- **The low bits go through every operation**, whatever their number. -/
theorem ofInt_onIntegers (op : WordOp) (n : Nat) (x y : Int) :
    BitVec.ofInt n (op.onIntegers x y) = op.onWords (BitVec.ofInt n x) (BitVec.ofInt n y) := by
  cases op with
  | add => exact BitVec.ofInt_add x y
  | sub => rw [onIntegers, onWords, Int.sub_eq_add_neg, BitVec.ofInt_add, BitVec.ofInt_neg, BitVec.sub_eq_add_neg]
  | mul => exact BitVec.ofInt_mul x y
  | neg => exact BitVec.ofInt_neg
  -- an integer has a bit at every place, so the bitwise ones are compared bit by bit
  | and =>
    apply BitVec.eq_of_getLsbD_eq
    intro i hi
    simp only [onIntegers, onWords, BitVec.getLsbD_and, getLsbD_ofInt, Int.testBit_land, hi, decide_true, Bool.true_and]
  | or =>
    apply BitVec.eq_of_getLsbD_eq
    intro i hi
    simp only [onIntegers, onWords, BitVec.getLsbD_or, getLsbD_ofInt, Int.testBit_lor, hi, decide_true, Bool.true_and]
  | xor =>
    apply BitVec.eq_of_getLsbD_eq
    intro i hi
    simp only [onIntegers, onWords, BitVec.getLsbD_xor, getLsbD_ofInt, Int.testBit_lxor, hi, decide_true, Bool.true_and]
  | not =>
    apply BitVec.eq_of_getLsbD_eq
    intro i hi
    simp only [onIntegers, onWords, BitVec.getLsbD_not, getLsbD_ofInt, Int.testBit_lnot, hi, decide_true, Bool.true_and]

/-- the low bits of what is computed on 32 of them -/
theorem ofInt_bitwise {f : BitVec 32 → BitVec 32 → BitVec 32} {g : BitVec n → BitVec n → BitVec n} (hn : n ≤ 32)
    (h : ∀ a b, (f a b).setWidth n = g (a.setWidth n) (b.setWidth n)) (x y : Int) :
    BitVec.ofInt n (bitwise f x y) = g (BitVec.ofInt n x) (BitVec.ofInt n y) := by
  rw [bitwise, ofInt_toInt hn, h, setWidth_ofInt hn, setWidth_ofInt hn]

/-- **The low bits go through what a shape computes**, as long as they are at most those that it computes with. -/
theorem ofInt_onStored {op : WordOp} {f : Int → Int → Int} (hf : op.onStored s = some f) (hn : n ≤ 32) (x y : Int) :
    BitVec.ofInt n (f x y) = op.onWords (BitVec.ofInt n x) (BitVec.ofInt n y) := by
  cases op with
  | add | sub | mul | neg =>
    obtain rfl := Option.some.inj hf
    rw [← ofInt_onIntegers]
    rfl
  | not =>
    obtain rfl := Option.some.inj hf
    have hnot : Int.lnot x = -x - 1 := by
      cases x with
      | ofNat m => simp only [Int.lnot, Int.negSucc_eq, Int.ofNat_eq_natCast]; omega
      | negSucc m => simp only [Int.lnot, Int.negSucc_eq]; omega
    show BitVec.ofInt n (-x - 1) = _
    rw [← ofInt_onIntegers, onIntegers, hnot]
  | and =>
    obtain rfl := Option.some.inj hf
    exact ofInt_bitwise hn (fun _ _ => BitVec.setWidth_and) x y
  | or =>
    obtain rfl := Option.some.inj hf
    exact ofInt_bitwise hn (fun _ _ => BitVec.setWidth_or) x y
  | xor =>
    obtain rfl := Option.some.inj hf
    exact ofInt_bitwise hn (fun _ _ => BitVec.setWidth_xor) x y

/-- nothing that is computed on stored lanes leaves the 64-bit integers -/
theorem bounds_onStored {op : WordOp} {f : Int → Int → Int} (hf : op.onStored s = some f) {x y : Int}
    (hx : -2 ^ 31 ≤ x ∧ x < 2 ^ 31) (hy : -2 ^ 31 ≤ y ∧ y < 2 ^ 31) : -2 ^ 63 ≤ f x y ∧ f x y < 2 ^ 63 := by
  have hbits : ∀ z : BitVec 32, -2 ^ 63 ≤ z.toInt ∧ z.toInt < 2 ^ 63 := by
    intro z
    have hlow := z.le_toInt
    have hhigh := z.toInt_lt
    omega
  cases op with
  | mul =>
    obtain rfl := Option.some.inj hf
    have hxy : |x * y| ≤ 2 ^ 31 * 2 ^ 31 := by
      rw [abs_mul]
      apply mul_le_mul _ _ (abs_nonneg y) (by norm_num)
      · rw [abs_le]; omega
      · rw [abs_le]; omega
    rw [abs_le] at hxy
    show -2 ^ 63 ≤ x * y ∧ x * y < 2 ^ 63
    omega
  | add | sub | neg | not =>
    obtain rfl := Option.some.inj hf
    dsimp only
    omega
  | and | or | xor =>
    obtain rfl := Option.some.inj hf
    exact hbits _

end WordOp

/-- a stored lane is the signed reading of its bits -/
theorem LaneWidth.wrap_eq_toInt (w : LaneWidth) (n : Int) : w.wrap n = (BitVec.ofInt w.bits n).toInt :=
  (BitVec.toInt_ofInt n).symm

theorem LaneWidth.wrap_bounds (w : LaneWidth) (n : Int) :
    -2 ^ (w.bits - 1) ≤ w.wrap n ∧ w.wrap n < 2 ^ (w.bits - 1) := by
  rw [w.wrap_eq_toInt]
  exact ⟨BitVec.le_toInt _, BitVec.toInt_lt⟩

namespace Shape

variable {s t : Shape} {v w u : Packed}

/-- the bits of an integer lane -/
def word (s : Shape) (l : Lane) : BitVec s.width.bits := BitVec.ofInt s.width.bits l.toInt

theorem word_wrap (s : Shape) (n : Int) : s.word (.int (s.width.wrap n)) = BitVec.ofInt s.width.bits n := by
  rw [word, Lane.toInt, LaneWidth.wrap_eq_toInt, BitVec.ofInt_toInt]

theorem ofInt_visible (s : Shape) (n : Int) :
    BitVec.ofInt s.width.bits (s.visible n) = BitVec.ofInt s.width.bits n := by
  unfold visible
  split_ifs with h
  · have hpos : (twoPow s.width.bits : Int) ≠ 0 := by
      cases s.width <;> decide
    rw [ofInt_eq_ofInt_iff, LaneWidth.zeroExtend, Int.toNat_of_nonneg (Int.emod_nonneg _ hpos)]
    show n % (2 ^ s.width.bits : Nat) ≡ n [ZMOD 2 ^ s.width.bits]
    push_cast
    exact Int.mod_modEq n _
  · rfl

/-- the visible value of a lane is in the range of the shape -/
theorem visible_mem_range (hs : s.isInteger = true) (n : Int) :
    ∃ low high, s.range? = some (low, high) ∧ low ≤ s.visible (s.width.wrap n) ∧ s.visible (s.width.wrap n) ≤ high := by
  rw [range?, visible, isUnsigned]
  rcases kind_of_isInteger hs with hk | hk
  · obtain ⟨hlow, hhigh⟩ := s.width.wrap_bounds n
    have hcast : (twoPow (s.width.bits - 1) : Int) = 2 ^ (s.width.bits - 1) := Nat.cast_pow 2 _
    rw [hk]
    refine ⟨_, _, rfl, ?_, ?_⟩
    · rw [hcast]
      exact hlow
    · rw [hcast]
      exact Int.le_sub_one_of_lt hhigh
  · have hpos : (0 : Int) < twoPow s.width.bits := by
      cases s.width <;> decide
    have hlow := Int.emod_nonneg (s.width.wrap n) hpos.ne'
    have hhigh := Int.emod_lt_of_pos (s.width.wrap n) hpos
    rw [hk]
    refine ⟨_, _, rfl, Int.natCast_nonneg _, ?_⟩
    rw [if_pos (by rfl), LaneWidth.zeroExtend, Int.toNat_of_nonneg hlow]
    exact Int.le_sub_one_of_lt hhigh

/-! ## Operations on integer vectors -/

theorem unary_ints (hs : s.isInteger = true) (hv : v.WellFormed) (hvs : v.shape = s) (op : UnaryOp)
    {f : Int → Int} (hf : op.onInts = some f) :
    ∃ u, s.unary op v = .ok u ∧ u.WellFormed ∧ u.shape = s ∧
      ∀ i < s.laneCount, u.lane i = .int (s.width.wrap (f (v.lane i).toInt)) := by
  subst hvs
  obtain ⟨u, hu⟩ := Packed.mapInts_exists hv hs f
  refine ⟨u, ?_, Packed.mapInts_spec hv hu⟩
  apply bind_eq_ok.2
  refine ⟨v, Packed.expect_eq_ok.2 ⟨rfl, rfl⟩, ?_⟩
  rcases kind_of_isInteger hs with hk | hk
  · rw [hk, hf]
    exact hu
  · rw [hk, hf]
    exact hu

theorem binary_ints (hs : s.isInteger = true) (hv : v.WellFormed) (hw : w.WellFormed) (hvs : v.shape = s)
    (hws : w.shape = s) (op : BinaryOp) {f : Int → Int → Int} (hf : op.onInts s = some f) :
    ∃ u, s.binary op v w = .ok u ∧ u.WellFormed ∧ u.shape = s ∧
      ∀ i < s.laneCount, u.lane i = .int (s.width.wrap (f (v.lane i).toInt (w.lane i).toInt)) := by
  subst hvs
  obtain ⟨a, ha⟩ := hv.ints hs
  obtain ⟨b, hb⟩ := hw.ints (hws ▸ hs)
  obtain ⟨u, hu⟩ : ∃ u, v.zipInts w f = .ok u := by
    rw [Packed.zipInts, ha, hb]
    exact ⟨_, rfl⟩
  refine ⟨u, ?_, Packed.zipInts_spec hws hv hu⟩
  apply bind_eq_ok.2
  refine ⟨v, Packed.expect_eq_ok.2 ⟨rfl, rfl⟩, bind_eq_ok.2 ⟨w, Packed.expect_eq_ok.2 ⟨hws, rfl⟩, ?_⟩⟩
  rcases kind_of_isInteger hs with hk | hk
  · rw [hk, hf]
    exact hu
  · rw [hk, hf]
    exact hu

/-- an operation answers, and each of its lanes is computed from stored lanes and cut to the lane width -/
theorem run_ints (hs : s.isInteger = true) (hv : v.WellFormed) (hw : w.WellFormed) (hvs : v.shape = s)
    (hws : w.shape = s) {op : WordOp} {f : Int → Int → Int} (hf : op.onStored s = some f) :
    ∃ u, op.run s v w = .ok u ∧ u.WellFormed ∧ u.shape = s ∧
      ∀ i < s.laneCount, u.lane i = .int (s.width.wrap (f (v.lane i).toInt (w.lane i).toInt)) := by
  cases op with
  | add => exact binary_ints hs hv hw hvs hws .add hf
  | sub => exact binary_ints hs hv hw hvs hws .sub hf
  | mul => exact binary_ints hs hv hw hvs hws .mul hf
  | and => exact binary_ints hs hv hw hvs hws .and hf
  | or => exact binary_ints hs hv hw hvs hws .or hf
  | xor => exact binary_ints hs hv hw hvs hws .xor hf
  | neg =>
    obtain rfl := Option.some.inj hf
    exact unary_ints hs hv hvs .neg rfl
  | not =>
    obtain rfl := Option.some.inj hf
    exact unary_ints hs hv hvs .not rfl

/-- **Between shapes of one lane width, a reinterpretation keeps the lanes**, and only changes what is seen of them. -/
theorem reinterpret_lanes (hs : s.isInteger = true) (ht : t.isInteger = true) (hst : t.width = s.width) (hne : s ≠ t)
    (hv : v.WellFormed) (hvs : v.shape = s) :
    t.reinterpret s v = .ok u ↔ u.WellFormed ∧ u.shape = t ∧ ∀ i < s.laneCount, u.lane i = v.lane i := by
  have hcount : t.laneCount = s.laneCount := laneCount_congr hst
  have hbytes : t.bytesPerLane = s.bytesPerLane := by rw [bytesPerLane, bytesPerLane, hst]
  obtain ⟨r, hr, hwf, hrt, hblock⟩ := reinterpret_exists (isBool_of_isInteger ht) (isBool_of_isInteger hs) hne hv hvs
  have hlane : ∀ i < s.laneCount, r.lane i = v.lane i := by
    intro i hi
    rw [hwf.lane_eq_decode (by rw [hrt, hcount]; exact hi), hv.lane_eq_decode (by rw [hvs]; exact hi), hrt, hvs, hblock,
      hbytes, decodeLane_of_isInteger ht, decodeLane_of_isInteger hs]
  constructor
  · intro h
    obtain rfl := Except.ok.inj (hr.symm.trans h)
    exact ⟨hwf, hrt, hlane⟩
  · rintro ⟨hu, hut, hulane⟩
    obtain rfl : r = u := by
      apply hwf.ext hu (hrt.trans hut.symm)
      intro i hi
      rw [hrt, hcount] at hi
      rw [hlane i hi, hulane i hi]
    exact hr

/-- an operation on the other sign gives the same lanes -/
theorem run_reinterpret (hs : s.isInteger = true) (ht : t.isInteger = true) (hst : t.width = s.width) (hne : s ≠ t)
    (hv : v.WellFormed) (hw : w.WellFormed) (hvs : v.shape = s) (hws : w.shape = s) (op : WordOp) :
    ∃ v' w' r r', t.reinterpret s v = .ok v' ∧ t.reinterpret s w = .ok w' ∧ op.run s v w = .ok r ∧
      t.reinterpret s r = .ok r' ∧ op.run t v' w' = .ok r' := by
  have hcount : t.laneCount = s.laneCount := laneCount_congr hst
  have htotal : ∀ {x : Packed}, x.WellFormed → x.shape = s → ∃ y, t.reinterpret s x = .ok y := by
    intro x hx hxs
    obtain ⟨y, hy, -⟩ := reinterpret_exists (isBool_of_isInteger ht) (isBool_of_isInteger hs) hne hx hxs
    exact ⟨y, hy⟩
  obtain ⟨f, hf⟩ := op.onStored_exists s
  have hft : op.onStored t = some f := by rw [← hf, op.onStored_congr]
  obtain ⟨v', hv'⟩ := htotal hv hvs
  obtain ⟨w', hw'⟩ := htotal hw hws
  obtain ⟨hvwf, hvt, hvlane⟩ := (reinterpret_lanes hs ht hst hne hv hvs).1 hv'
  obtain ⟨hwwf, hwt, hwlane⟩ := (reinterpret_lanes hs ht hst hne hw hws).1 hw'
  obtain ⟨r, hr, hrwf, hrs, hrlane⟩ := run_ints hs hv hw hvs hws hf
  obtain ⟨r', hr', hrwf', hrt, hrlane'⟩ := run_ints ht hvwf hwwf hvt hwt hft
  refine ⟨v', w', r, r', hv', hw', hr, (reinterpret_lanes hs ht hst hne hrwf hrs).2 ⟨hrwf', hrt, ?_⟩, hr'⟩
  intro i hi
  rw [hrlane i hi, hrlane' i (hcount ▸ hi), hvlane i hi, hwlane i hi, hst]

end Shape

/-! ## Exactness -/

/-- A lane `l` of the result of an operation on the lanes `x` and `y`: its bits are those of the words' operation, it
was computed without leaving the 64-bit integers, and the visible value is in the range of the shape and congruent to
the operation on the visible values. -/
structure WordOp.Exact (op : WordOp) (s : Shape) (x y l : Lane) : Prop where
  word : s.word l = op.onWords (s.word x) (s.word y)
  computed : ∃ f, op.onStored s = some f ∧ l = .int (s.width.wrap (f x.toInt y.toInt)) ∧
    -2 ^ 63 ≤ f x.toInt y.toInt ∧ f x.toInt y.toInt < 2 ^ 63
  range : ∃ low high, s.range? = some (low, high) ∧ low ≤ s.visible l.toInt ∧ s.visible l.toInt ≤ high
  congruent : s.visible l.toInt ≡ op.onIntegers (s.visible x.toInt) (s.visible y.toInt) [ZMOD 2 ^ s.width.bits]

/-- a stored integer has the sign of the lane width -/
theorem Packed.WellFormed.wrap_lane {v : Packed} (hv : v.WellFormed) (i : Nat) :
    v.shape.width.wrap (v.lane i).toInt = (v.lane i).toInt := by
  have hstored := hv.normalize_lane i
  cases hl : v.lane i with
  | int n =>
    rw [hl] at hstored
    exact Lane.int.inj hstored
  | float _ | bool _ => exact Int.zero_bmod

theorem Packed.WellFormed.toInt_bounds {v : Packed} (hv : v.WellFormed) (i : Nat) :
    -2 ^ 31 ≤ (v.lane i).toInt ∧ (v.lane i).toInt < 2 ^ 31 := by
  have hbounds := v.shape.width.wrap_bounds (v.lane i).toInt
  rw [hv.wrap_lane] at hbounds
  have hle : (2 : Int) ^ (v.shape.width.bits - 1) ≤ 2 ^ 31 :=
    pow_le_pow_right₀ (by norm_num) (Nat.sub_le_sub_right v.shape.width.bits_le 1)
  omega

/-- **Integer lanes are words.** Every operation that wraps around answers on all vectors of an integer shape, each lane
exact in the sense of `WordOp.Exact`; and on the shape of the other sign it gives the same bits. -/
theorem integer_lanes_exact {s : Shape} (hs : s.isInteger = true) {v w : Packed} (hv : v.WellFormed)
    (hw : w.WellFormed) (hvs : v.shape = s) (hws : w.shape = s) (op : WordOp) :
    (∃ u, op.run s v w = .ok u ∧ u.WellFormed ∧ u.shape = s ∧
      ∀ i < s.laneCount, op.Exact s (v.lane i) (w.lane i) (u.lane i)) ∧
    ∀ t, t.isInteger = true → t.width = s.width → t ≠ s →
      ∃ v' w' u u', t.reinterpret s v = .ok v' ∧ t.reinterpret s w = .ok w' ∧ op.run s v w = .ok u ∧
        t.reinterpret s u = .ok u' ∧ op.run t v' w' = .ok u' := by
  constructor
  · obtain ⟨f, hf⟩ := op.onStored_exists s
    obtain ⟨u, hu, hwf, hus, hlane⟩ := Shape.run_ints hs hv hw hvs hws hf
    refine ⟨u, hu, hwf, hus, fun i hi => ?_⟩
    have hword : s.word (u.lane i) = op.onWords (s.word (v.lane i)) (s.word (w.lane i)) := by
      rw [hlane i hi, s.word_wrap]
      exact WordOp.ofInt_onStored hf s.width.bits_le _ _
    refine ⟨hword, ⟨f, hf, hlane i hi, ?_⟩, ?_, ?_⟩
    · exact WordOp.bounds_onStored hf (hv.toInt_bounds i) (hw.toInt_bounds i)
    · rw [hlane i hi]
      exact Shape.visible_mem_range hs _
    · rw [← ofInt_eq_ofInt_iff, WordOp.ofInt_onIntegers]
      simp only [s.ofInt_visible]
      exact hword
  · intro t ht hst hne
    exact Shape.run_reinterpret hs ht hst (Ne.symm hne) hv hw hvs hws op

/-- The least and the greatest integers, multiplied with a sign and without: the least squared has no bit left among
those of the lane. -/
theorem integer_lanes_exact_limits :
    let v : Packed := ⟨.int32x4, .ints #v[-2147483648, 2147483647, -1, 46341, 0, 0, 0, 0, 0, 0, 0, 0, 0, 0, 0, 0]⟩
    let u : Packed := ⟨.int32x4, .ints #v[0, 1, 1, -2147479015, 0, 0, 0, 0, 0, 0, 0, 0, 0, 0, 0, 0]⟩
    v.WellFormed ∧ WordOp.mul.run .int32x4 v v = .ok u ∧
      (∀ i < Shape.laneCount .int32x4, WordOp.mul.Exact .int32x4 (v.lane i) (v.lane i) (u.lane i)) ∧
      ∃ v' u', Shape.reinterpret .uint32x4 .int32x4 v = .ok v' ∧ Shape.reinterpret .uint32x4 .int32x4 u = .ok u' ∧
        WordOp.mul.run .uint32x4 v' v' = .ok u' := by
  intro v u
  have hv : v.WellFormed := by decide
  have hu : WordOp.mul.run .int32x4 v v = .ok u := by decide +kernel
  obtain ⟨⟨r, hr, -, -, hexact⟩, hsign⟩ := integer_lanes_exact (s := .int32x4) rfl hv hv rfl rfl .mul
  obtain rfl : r = u := Except.ok.inj (hr.symm.trans hu)
  obtain ⟨v', w', r', u', hv', hw', hr', hu', hrun⟩ := hsign .uint32x4 rfl rfl (by decide)
  obtain rfl : w' = v' := Except.ok.inj (hw'.symm.trans hv')
  obtain rfl : r' = u := Except.ok.inj (hr'.symm.trans hu)
  exact ⟨hv, hu, hexact, w', u', hw', hu', hrun⟩

end Vector128
