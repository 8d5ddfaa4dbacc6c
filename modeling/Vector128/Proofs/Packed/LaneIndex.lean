/-
Which lane an index names.

An index is judged as a Number and taken as a 32-bit integer. It is refused unless it is an integer from 0 to the
largest length, but the lane is what 32 bits hold of it (`laneIndex_eq_ok_iff`). So an index below `2 ^ 32` names the lane
of its own number or none, and one from there on may name the lane that is left of it (`laneIndex_exact_iff`).
-/
import Vector128.Packed.Access
import Vector128.Proofs.Number.LowBits

namespace Vector128

open Outcome

/-- The lane that a value names among `limit` lanes: its Number is an index, and the lane is what 32 bits with a sign
hold of that. -/
def Value.NamesLane (x : Value) (limit k : Nat) : Prop :=
  ∃ n m, x.toNumber = .ok n ∧ n.Denotes (m : Nat) ∧ m ≤ Number.maxSafeInteger ∧ m % 2 ^ 32 = k ∧ k < 2 ^ 31 ∧ k < limit

section Index

variable {limit k : Nat} {x : Value} {n : Double}

/-- the last of 32 bits is the sign -/
theorem toSigned_of_denotes {m : Nat} (h : n.Denotes m) :
    Number.toSigned 32 n = if m % 2 ^ 32 < 2 ^ 31 then (m % 2 ^ 32 : Int) else m % 2 ^ 32 - 2 ^ 32 := by
  rw [Number.toSigned_eq (by decide), Number.integerPart_of_denotes h, Int.bmod]
  split_ifs <;> omega

theorem laneIndex_eq_ok_iff : laneIndex limit x = .ok k ↔ x.NamesLane limit k := by
  constructor
  · intro h
    obtain ⟨n, hn, h⟩ := bind_eq_ok.1 h
    dsimp only at h
    split_ifs at h with hlane
    · obtain ⟨hindex, hsign, hlimit⟩ := hlane
      obtain rfl := pure_eq_ok.1 h
      obtain ⟨m, hm⟩ := Option.isSome_iff_exists.1 hindex
      obtain ⟨hdenotes, hmax⟩ := Number.index?_eq_some_iff.1 hm
      rw [toSigned_of_denotes hdenotes] at hsign hlimit ⊢
      split_ifs at hsign hlimit ⊢ with hlow
      · exact ⟨n, m, hn, hdenotes, hmax, by omega, by omega, by omega⟩
      · omega
    · exact absurd h refuse_ne_ok
  · rintro ⟨n, m, hn, hdenotes, hmax, rfl, hlow, hlimit⟩
    have hindex : (Number.index? n).isSome = true := by
      rw [Number.index?_eq_some_iff.2 ⟨hdenotes, hmax⟩]
      rfl
    refine bind_eq_ok.2 ⟨n, hn, ?_⟩
    dsimp only
    rw [toSigned_of_denotes hdenotes, if_pos hlow, if_pos ⟨hindex, by omega, by omega⟩]
    exact congrArg Except.ok (by omega)

/-- what has a Number either names a lane or is out of bounds -/
theorem laneIndex_ok_or_refuse (hn : x.toNumber = .ok n) :
    (∃ k, laneIndex limit x = .ok k) ∨ laneIndex limit x = refuse .laneIndex := by
  simp only [laneIndex, hn, bind, Except.bind]
  split_ifs
  · exact Or.inl ⟨_, rfl⟩
  · exact Or.inr rfl

theorem exists_toNumber (hx : ∀ v, x ≠ .vector v) : ∃ n, x.toNumber = .ok n := by
  cases x with
  | vector v => exact absurd rfl (hx v)
  | _ => exact ⟨_, rfl⟩

/-- **An index names the lane of its own number, exactly if it is below `2 ^ 32` or what is left of it is no lane.** -/
theorem laneIndex_exact_iff (hlimit : limit ≤ 2 ^ 31) (hn : x.toNumber = .ok n) :
    (∀ k, laneIndex limit x = .ok k ↔ n.Denotes (k : Nat) ∧ k < limit) ↔
      ∀ m : Nat, n.Denotes m → 2 ^ 32 ≤ m → m ≤ Number.maxSafeInteger → limit ≤ m % 2 ^ 32 := by
  constructor
  · intro hexact m hm hlarge hmax
    by_contra hlane
    have hnames : laneIndex limit x = .ok (m % 2 ^ 32) :=
      laneIndex_eq_ok_iff.2 ⟨n, m, hn, hm, hmax, rfl, by omega, by omega⟩
    have heq : (m : Int) = (m % 2 ^ 32 : Nat) := hm.unique ((hexact _).1 hnames).1
    omega
  · intro hlarge k
    constructor
    · intro h
      obtain ⟨n', m, hn', hm, hmax, rfl, -, hk⟩ := laneIndex_eq_ok_iff.1 h
      obtain rfl : n' = n := Except.ok.inj (hn'.symm.trans hn)
      rcases Nat.lt_or_ge m (2 ^ 32) with hsmall | hge
      · rw [Nat.mod_eq_of_lt hsmall] at hk ⊢
        exact ⟨hm, hk⟩
      · exact absurd (hlarge m hm hge hmax) (not_le.2 hk)
    · rintro ⟨hk, hlane⟩
      have hmax : k ≤ Number.maxSafeInteger := hlane.le.trans (hlimit.trans (by decide))
      exact laneIndex_eq_ok_iff.2 ⟨n, k, hn, hk, hmax, Nat.mod_eq_of_lt (by omega), by omega, hlane⟩

theorem laneIndex_lt (h : laneIndex limit x = .ok k) : k < limit := by
  obtain ⟨-, -, -, -, -, -, -, hk⟩ := laneIndex_eq_ok_iff.1 h
  exact hk

/-- a Number that equals the number of a lane names it -/
theorem laneIndex_of_denotes (hn : x.toNumber = .ok n) (hdenotes : n.Denotes (k : Nat)) (hk : k < limit)
    (hlimit : limit ≤ 2 ^ 31) : laneIndex limit x = .ok k := by
  have hmax : k ≤ Number.maxSafeInteger := hk.le.trans (hlimit.trans (by decide))
  exact laneIndex_eq_ok_iff.2 ⟨n, k, hn, hdenotes, hmax, Nat.mod_eq_of_lt (by omega), by omega, hk⟩

theorem laneIndex_ofNat (hk : k < limit) (hlimit : limit ≤ 2 ^ 31) :
    laneIndex limit (.number (Binary.ofNat k)) = .ok k := by
  have hexact : k < 2 ^ 53 := (hk.trans_le hlimit).trans (by decide)
  exact laneIndex_of_denotes rfl (Number.denotes_ofNat hexact) hk hlimit

theorem laneIndex_zero (hlimit : 0 < limit) : laneIndex limit (.number Binary.zero) = .ok 0 :=
  laneIndex_eq_ok_iff.2 ⟨Binary.zero, 0, rfl, Number.denotes_zero, Nat.zero_le _, rfl, by decide, hlimit⟩

/-- what is no Number is no index, and unlike a missing one it is refused -/
theorem laneIndex_undefined (limit : Nat) : laneIndex limit .undefined = refuse .laneIndex := by
  refine (laneIndex_ok_or_refuse (n := Binary.nan) rfl).resolve_left ?_
  rintro ⟨k, hk⟩
  obtain ⟨n, m, hn, hdenotes, -⟩ := laneIndex_eq_ok_iff.1 hk
  obtain rfl : Binary.nan = n := Except.ok.inj hn
  exact absurd hdenotes.finite (by decide)

end Index

end Vector128
