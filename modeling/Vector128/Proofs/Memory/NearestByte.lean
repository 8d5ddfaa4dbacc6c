/-
Clamped bytes are the nearest ones to their Numbers.

The byte of a Number is judged on the extended numbers. A Number that is no NaN has a place there, which is kept
between 0 and 255, and the byte is the integer nearest to what is left, the even one of two (`ClampsTo`). This is what
rounding the units gives, since the nearest integer of the lesser of two numbers is the lesser of their nearest
integers (`NearestInteger.min`), and so the byte may be kept below 256 after it was rounded. Greater Numbers have no
smaller bytes (`ClampsTo.mono`).

`clamped_bytes_nearest` says so of the byte that is stored, and of what is read from an element that it was assigned
to or made of.
-/
import Vector128.Proofs.Binary.NearestInteger
import Vector128.Proofs.Memory.Element

namespace Vector128

namespace Extended

variable {p q low high : ℚ}

theorem ofRat_le_iff : ofRat p ≤ ofRat q ↔ p ≤ q := by
  rw [← not_lt, ofRat_lt_iff, not_lt]

theorem monotone_ofRat : Monotone ofRat := fun _ _ h => ofRat_le_iff.2 h

/-- a place kept between two numbers -/
def keptIn (low high : ℚ) (p : Extended) : Extended := min (max p (ofRat low)) (ofRat high)

theorem monotone_keptIn (low high : ℚ) : Monotone (keptIn low high) := by
  intro a b h
  exact min_le_min_right _ (max_le_max_right _ h)

theorem keptIn_ofRat (low high q : ℚ) : keptIn low high (ofRat q) = ofRat (min (max q low) high) := by
  rw [keptIn, ← monotone_ofRat.map_max, ← monotone_ofRat.map_min]

theorem keptIn_bot (h : low ≤ high) : keptIn low high ⊥ = ofRat low := by
  rw [keptIn, max_eq_right bot_le, min_eq_left (ofRat_le_iff.2 h)]

theorem keptIn_top (low high : ℚ) : keptIn low high ⊤ = ofRat high := by
  rw [keptIn, max_eq_left le_top, min_eq_right le_top]

end Extended

theorem NearestInteger.min {p q : ℚ} {n m : Int} (hn : NearestInteger p n) (hm : NearestInteger q m) :
    NearestInteger (min p q) (min n m) := by
  rcases le_total p q with h | h
  · rwa [min_eq_left h, min_eq_left (hn.mono hm h)]
  · rwa [min_eq_right h, min_eq_right (hm.mono hn h)]

/-! ## The byte of a Number -/

/-- The byte that a Number is clamped to: 0 for a NaN, else the integer that is nearest to the Number kept between 0
and 255, the even one of two. -/
structure ClampsTo (x : Double) (b : Nat) : Prop where
  le : b ≤ 255
  nan : x.isNaN = true → b = 0
  nearest : x.isNaN = false → ∃ q : ℚ, x.extended.keptIn 0 255 = .ofRat q ∧ NearestInteger q b

variable {x y : Double} {b c : Nat}

/-- **Greater Numbers have no smaller bytes.** -/
theorem ClampsTo.mono (hb : ClampsTo x b) (hc : ClampsTo y c) (hx : x.isNaN = false) (hy : y.isNaN = false)
    (h : x.extended ≤ y.extended) : b ≤ c := by
  obtain ⟨p, hp, hpb⟩ := hb.nearest hx
  obtain ⟨q, hq, hqc⟩ := hc.nearest hy
  have hkept := Extended.monotone_keptIn 0 255 h
  rw [hp, hq, Extended.ofRat_le_iff] at hkept
  exact_mod_cast hpb.mono hqc hkept

theorem clampedByte_of_negative (hx : x.isNaN = false) (hneg : x.negative = true) : clampedByte x = 0 := by
  rw [clampedByte_eq, hx, hneg, Bool.false_or, if_pos rfl]

/-- **The byte of a finite Number** is the integer nearest to its value, which is kept between 0 and 255. -/
theorem nearest_clampedByte (hx : x.isFinite = true) : NearestInteger (min (max x.value 0) 255) (clampedByte x) := by
  have hnan := Binary.isNaN_of_isFinite hx
  have hone := Binary.one_cast_pos Format.double
  have hsign := x.units_eq_natAbs
  cases hneg : x.negative with
  | true =>
    rw [hneg, if_pos rfl] at hsign
    have hvalue : x.value ≤ 0 := by
      rw [Binary.value]
      exact div_nonpos_of_nonpos_of_nonneg (Int.cast_nonpos.2 (by omega)) hone.le
    rw [clampedByte_of_negative hnan hneg, max_eq_right hvalue, min_eq_left (by norm_num)]
    exact_mod_cast nearestInteger_intCast 0
  | false =>
    rw [hneg, if_neg Bool.false_ne_true] at hsign
    have hnonneg : 0 ≤ x.value := by
      rw [Binary.value]
      exact div_nonneg (Int.cast_nonneg (by omega)) hone.le
    have hvalue : x.value = x.units.natAbs / Format.double.one := by
      rw [← Binary.abs_value, abs_of_nonneg hnonneg]
    have hbyte : (clampedByte x : Int) = min (divRoundEven x.units.natAbs Format.double.one : Int) 255 := by
      rw [clampedByte_eq, hnan, hneg, Bool.or_false, if_neg Bool.false_ne_true, Nat.cast_min, min_comm,
        Nat.cast_ofNat]
    rw [max_eq_left hnonneg, hvalue, hbyte]
    exact_mod_cast (nearestInteger_divRoundEven _ (Binary.one_pos _)).min (nearestInteger_intCast 255)

/-- **A clamped byte is the nearest one**, of every Number. -/
theorem clampsTo_clampedByte (x : Double) : ClampsTo x (clampedByte x) where
  le := by
    rw [clampedByte_eq]
    split_ifs
    · exact Nat.zero_le _
    · exact Nat.min_le_left _ _
  nan := by
    intro hx
    rw [clampedByte_eq, hx, Bool.true_or, if_pos rfl]
  nearest := by
    intro hx
    cases hinf : x.isInfinite with
    | false =>
      have hfinite := x.isFinite_of_not hx hinf
      refine ⟨_, ?_, nearest_clampedByte hfinite⟩
      rw [Binary.extended_of_isFinite hfinite, Extended.keptIn_ofRat]
    | true =>
      rw [Binary.extended_of_isInfinite hinf]
      cases hneg : x.negative with
      | true =>
        rw [clampedByte_of_negative hx hneg]
        refine ⟨0, Extended.keptIn_bot (by norm_num), ?_⟩
        exact_mod_cast nearestInteger_intCast 0
      | false =>
        have hbyte : clampedByte (Binary.infinity false) = 255 := by decide +kernel
        rw [Binary.eq_infinity hinf, hneg, hbyte]
        refine ⟨255, Extended.keptIn_top 0 255, ?_⟩
        exact_mod_cast nearestInteger_intCast 255

/-! ## Elements -/

theorem encode_clamped (x : Double) : ElementKind.uint8Clamped.encode x = [UInt8.ofNat (clampedByte x)] := rfl

/-- what is left of a Number in a clamped element is its byte -/
theorem denotes_converted_clamped (x : Double) : (ElementKind.uint8Clamped.converted x).Denotes (clampedByte x) := by
  have hle := (clampsTo_clampedByte x).le
  rw [ElementKind.converted, ← clampedByte_eq]
  exact Number.denotes_ofNat (by omega)

namespace View

/-- an element of a view that was made can be assigned to, and shows what was assigned, as converted -/
theorem exists_set {w : World} (hw : w.Reachable) {v : View} (hv : v ∈ w.views) {i : Nat} (hi : i < v.count w.store)
    (x : Double) : ∃ st', v.set w.store i x = (.ok (), st') ∧ v.get st' i = .ok (v.kind.converted x) := by
  have hattached : (w.store.buffer v.buffer).detached = false := by
    rw [Bool.eq_false_iff]
    intro hd
    rw [count, isDetached, hd, if_pos rfl] at hi
    exact Nat.not_lt_zero i hi
  obtain ⟨st', hset, -, hget, -⟩ := (elementLaws_of_live (hw.sound.live (p := .view v) hv hattached)).set i hi x
  exact ⟨st', hset, hget⟩

theorem get_ofElements (st : Store) {kind : ElementKind} {xs : List Double} (hsize : xs.length * kind.size ≤ sizeLimit)
    {i : Nat} (hi : i < xs.length) :
    (ofElements st kind xs).1.get (ofElements st kind xs).2 i = .ok (kind.converted xs[i]) := by
  have hlength := World.length_ofElements kind xs
  have hlive := live_fresh st hlength (hlength.trans_le hsize)
  have hget := get_of_live hlive hi
  rw [get_fresh st hlength] at hget
  refine hget.trans ?_
  show Except.ok (kind.decode (slice (xs.flatMap kind.encode) (i * kind.size) kind.size)) = _
  rw [slice_flatMap (fun x _ => World.length_encode kind x) hi, kind.decode_encode]

end View

/-- **Clamped bytes are the nearest ones.** The byte that is stored for a Number is 0 for a NaN, else the integer
nearest to the Number kept between 0 and 255, the even one of two, and greater Numbers have no smaller bytes. It is
what is read from an element that the Number was assigned to, in every view of clamped bytes that was made, and from
an element of a view that was made of Numbers. -/
theorem clamped_bytes_nearest (x : Double) :
    ClampsTo x (clampedByte x) ∧
    ElementKind.uint8Clamped.encode x = [UInt8.ofNat (clampedByte x)] ∧
    (∀ y, x.isNaN = false → y.isNaN = false → x.extended ≤ y.extended → clampedByte x ≤ clampedByte y) ∧
    (∀ w : World, w.Reachable → ∀ v ∈ w.views, v.kind = .uint8Clamped → ∀ i < v.count w.store,
      ∃ st' y, v.set w.store i x = (.ok (), st') ∧ v.get st' i = .ok y ∧ y.Denotes (clampedByte x)) ∧
    ∀ (st : Store) (xs : List Double), xs.length ≤ sizeLimit → ∀ i, xs[i]? = some x →
      ∃ y, (View.ofElements st .uint8Clamped xs).1.get (View.ofElements st .uint8Clamped xs).2 i = .ok y ∧
        y.Denotes (clampedByte x) := by
  have hconverted := denotes_converted_clamped x
  refine ⟨clampsTo_clampedByte x, encode_clamped x, ?_, ?_, ?_⟩
  · intro y hx hy h
    exact (clampsTo_clampedByte x).mono (clampsTo_clampedByte y) hx hy h
  · intro w hw v hv hkind i hi
    obtain ⟨st', hset, hget⟩ := View.exists_set hw hv hi x
    rw [hkind] at hget
    exact ⟨st', _, hset, hget, hconverted⟩
  · intro st xs hsize i hx
    obtain ⟨hi, rfl⟩ := List.getElem?_eq_some_iff.1 hx
    have hroom : xs.length * ElementKind.uint8Clamped.size ≤ sizeLimit := by
      rwa [show ElementKind.uint8Clamped.size = 1 from rfl, Nat.mul_one]
    exact ⟨_, View.get_ofElements st hroom hi, hconverted⟩

/-- The Number 2.5 becomes 2 and the next one 3. They are assigned to an element, and a view is made of the first and
of an infinity. -/
theorem clamped_bytes_nearest_half :
    let x : Double := .ofBits 0x4004000000000000
    let y : Double := .ofBits 0x4004000000000001
    let w := World.empty.run [.newArray .uint8Clamped 2]
    let v : View := ⟨0, .uint8Clamped, 0, 2⟩
    let (u, st) := View.ofElements w.store .uint8Clamped [Binary.infinity false, x]
    x.isNaN = false ∧ y.isNaN = false ∧ x.extended ≤ y.extended ∧ clampedByte x ≤ clampedByte y ∧
      (∃ q : ℚ, x.extended.keptIn 0 255 = .ofRat q ∧ NearestInteger q 2) ∧
      ElementKind.uint8Clamped.encode y = [3] ∧ w.Reachable ∧ v ∈ w.views ∧ 1 < v.count w.store ∧
      (∃ st' z, v.set w.store 1 y = (.ok (), st') ∧ v.get st' 1 = .ok z ∧ z.Denotes 3) ∧
      (∃ z, u.get st 0 = .ok z ∧ z.Denotes 255) ∧ ∃ z, u.get st 1 = .ok z ∧ z.Denotes 2 := by
  intro x y w v
  have hx : x.isNaN = false := by decide
  have hy : y.isNaN = false := by decide
  have hle : x.extended ≤ y.extended := ((Binary.extended_lt_iff (by decide) hx hy).2 (by decide)).le
  have hxbyte : clampedByte x = 2 := by decide +kernel
  have hybyte : clampedByte y = 3 := by decide +kernel
  have htop : clampedByte (Binary.infinity false) = 255 := by decide +kernel
  have hw : w.Reachable := ⟨_, rfl⟩
  have hv : v ∈ w.views := by decide
  have hcount : 1 < v.count w.store := by decide
  obtain ⟨hclamps, -, hmono, -, hmade⟩ := clamped_bytes_nearest x
  obtain ⟨-, hencode, -, hset, -⟩ := clamped_bytes_nearest y
  obtain ⟨-, -, -, -, hmadeTop⟩ := clamped_bytes_nearest (Binary.infinity false)
  have hnearest := hclamps.nearest hx
  have hassigned := hset w hw v hv rfl 1 hcount
  have hfirst := hmadeTop w.store [Binary.infinity false, x] (by decide) 0 rfl
  have hsecond := hmade w.store [Binary.infinity false, x] (by decide) 1 rfl
  rw [hxbyte] at hnearest hsecond
  rw [hybyte] at hencode hassigned
  rw [htop] at hfirst
  exact ⟨hx, hy, hle, hmono y hx hy hle, hnearest, hencode, hw, hv, hcount, hassigned, hfirst, hsecond⟩

end Vector128
