/-
How many arguments a function looks at, and what it takes for those that are missing.

The lengths that functions declare are exact: what follows so many arguments is not looked at
(`Builtin.dispatch_append`). Up to the fixed parameters a missing argument is `undefined`. The indices of a permutation
are not among these, and a missing one is a zero, where `undefined` would be refused (`Builtin.dispatch_append_zeros`,
`Builtin.dispatch_append_undefined`). Constructors follow the indices: a missing lane is the one that zero or `false`
becomes.

`calls_by_position` puts them together.
-/
import Vector128.Proofs.Builtin.Total
import Vector128.Proofs.Packed.LaneAccess

namespace Vector128

open Outcome

namespace Builtin

variable {cast : FloatCast} {b : Builtin} {s : Shape} {st : Store} {args : List Value} {i : Nat}

theorem argument_append (h : i < args.length) (more : List Value) : argument (args ++ more) i = argument args i := by
  rw [argument, List.getElem?_append_left h, argument]

theorem operand_append (h : i < args.length) (s : Shape) (more : List Value) :
    operand s (args ++ more) i = operand s args i := by
  rw [operand, argument_append h, operand]

theorem further_eq (h : i ≤ args.length) : further args i = .ok (args.drop i) := if_pos h

theorem storeArguments_append (h : 3 ≤ args.length) (s : Shape) (st : Store) (more : List Value) (count : Nat) :
    storeArguments s st (args ++ more) count = storeArguments s st args count := by
  match args, h with
  | target :: index :: x :: _, _ => rfl

theorem dispatch_swizzle (h : 1 ≤ args.length) :
    dispatch cast .swizzle s st args = (do return .vector (← s.swizzle (← operand s args 0) (args.drop 1)), st) := by
  rw [dispatch, further_eq h]
  rfl

theorem dispatch_shuffle (h : 2 ≤ args.length) : dispatch cast .shuffle s st args =
    (do return .vector (← s.shuffle (← operand s args 0) (← operand s args 1) (args.drop 2)), st) := by
  rw [dispatch, further_eq h]
  rfl

theorem dispatch_swizzle_append (h : 1 ≤ args.length) (more : List Value) : dispatch cast .swizzle s st (args ++ more) =
    (do return .vector (← s.swizzle (← operand s args 0) (args.drop 1 ++ more)), st) := by
  rw [dispatch_swizzle (h.trans (List.sublist_append_left _ _).length_le), operand_append h,
    List.drop_append_of_le_length h]

theorem dispatch_shuffle_append (h : 2 ≤ args.length) (more : List Value) : dispatch cast .shuffle s st (args ++ more) =
    (do return .vector (← s.shuffle (← operand s args 0) (← operand s args 1) (args.drop 2 ++ more)), st) := by
  rw [dispatch_shuffle (h.trans (List.sublist_append_left _ _).length_le), operand_append (by omega),
    operand_append h, List.drop_append_of_le_length h]

/-! ## Arguments beyond the length -/

theorem fixedLength_le_length (b : Builtin) (s : Shape) : b.fixedLength ≤ b.length s := by
  unfold length
  split
  · exact Nat.le_add_right _ _
  · exact Nat.le_add_right _ _
  · exact le_rfl

/-- **What follows the declared arguments is not looked at.** -/
theorem dispatch_append (h : b.length s ≤ args.length) (more : List Value) :
    b.dispatch cast s st (args ++ more) = b.dispatch cast s st args := by
  cases b with
  | swizzle =>
    have hlength : 1 + s.laneCount ≤ args.length := h
    have hvector : 1 ≤ args.length := by omega
    have hindices : s.laneCount ≤ (args.drop 1).length := by
      rw [List.length_drop]
      omega
    simp only [dispatch_swizzle_append hvector, dispatch_swizzle hvector, Shape.swizzle_append hindices]
  | shuffle =>
    have hlength : 2 + s.laneCount ≤ args.length := h
    have hvectors : 2 ≤ args.length := by omega
    have hindices : s.laneCount ≤ (args.drop 2).length := by
      rw [List.length_drop]
      omega
    simp only [dispatch_shuffle_append hvectors, dispatch_shuffle hvectors, Shape.shuffle_append hindices]
  | store amount => rw [dispatch, storeArguments_append h, dispatch]
  | splat | check | unary _ | anyTrue | allTrue | convert _ | reinterpret _ =>
    have hfirst : 0 < args.length := h
    simp only [dispatch, argument_append hfirst, operand_append hfirst]
  | binary _ | compare _ | shiftLeft | shiftRight | extractLane | load _ =>
    have hsecond : 1 < args.length := h
    have hfirst : 0 < args.length := by omega
    simp only [dispatch, argument_append hfirst, argument_append hsecond, operand_append hfirst, operand_append hsecond]
  | select | replaceLane =>
    have hthird : 2 < args.length := h
    have hfirst : 0 < args.length := by omega
    have hsecond : 1 < args.length := by omega
    simp only [dispatch, argument_append hfirst, argument_append hsecond, argument_append hthird, operand_append hfirst,
      operand_append hsecond, operand_append hthird]

/-- **A missing index of a permutation is a zero.** -/
theorem dispatch_append_zeros (hb : b = .swizzle ∨ b = .shuffle) (h : b.fixedLength ≤ args.length) (n : Nat) :
    b.dispatch cast s st (args ++ List.replicate n (.number Binary.zero)) = b.dispatch cast s st args := by
  rcases hb with rfl | rfl
  · have hvector : 1 ≤ args.length := h
    simp only [dispatch_swizzle_append hvector, dispatch_swizzle hvector, Shape.swizzle_append_zeros]
  · have hvectors : 2 ≤ args.length := h
    simp only [dispatch_shuffle_append hvectors, dispatch_shuffle hvectors, Shape.shuffle_append_zeros]

/-- and not `undefined`, which is refused -/
theorem dispatch_append_undefined {y : Value} (hb : b = .swizzle ∨ b = .shuffle) (h : b.fixedLength ≤ args.length)
    (hlength : args.length < b.length s) (hy : (b.dispatch cast s st args).1 = .ok y) :
    b.dispatch cast s st (args ++ [.undefined]) = (refuse .laneIndex, st) := by
  rcases hb with rfl | rfl
  · have hvector : 1 ≤ args.length := h
    have hindices : (args.drop 1).length < s.laneCount := by
      have hlength : args.length < 1 + s.laneCount := hlength
      rw [List.length_drop]
      omega
    rw [dispatch_swizzle hvector] at hy
    obtain ⟨v, hv, hy⟩ := bind_eq_ok.1 hy
    obtain ⟨u, hu, -⟩ := bind_eq_ok.1 hy
    rw [dispatch_swizzle_append hvector, hv]
    show ((do return Value.vector (← s.swizzle v (args.drop 1 ++ [.undefined])) : Outcome Value), st) = _
    rw [Shape.swizzle_append_undefined hindices hu]
    rfl
  · have hvectors : 2 ≤ args.length := h
    have hindices : (args.drop 2).length < s.laneCount := by
      have hlength : args.length < 2 + s.laneCount := hlength
      rw [List.length_drop]
      omega
    rw [dispatch_shuffle hvectors] at hy
    obtain ⟨v, hv, hy⟩ := bind_eq_ok.1 hy
    obtain ⟨w, hw, hy⟩ := bind_eq_ok.1 hy
    obtain ⟨u, hu, -⟩ := bind_eq_ok.1 hy
    rw [dispatch_shuffle_append hvectors, hv, hw]
    show ((do return Value.vector (← s.shuffle v w (args.drop 2 ++ [.undefined])) : Outcome Value), st) = _
    rw [Shape.shuffle_append_undefined hindices hu]
    rfl

theorem padded_eq_self (h : b.fixedLength ≤ args.length) : b.padded args = args := by
  rw [padded, Nat.sub_eq_zero_of_le h, List.replicate_zero, List.append_nil]

theorem call_eq_dispatch (h : b.fixedLength ≤ args.length) : b.call cast s st args = b.dispatch cast s st args := by
  rw [call, padded_eq_self h]

theorem call_take (cast : FloatCast) (b : Builtin) (s : Shape) (st : Store) (args : List Value)
    (h : b.length s ≤ args.length) : b.call cast s st (args.take (b.length s)) = b.call cast s st args := by
  have htake : (args.take (b.length s)).length = b.length s := List.length_take_of_le h
  rw [call_eq_dispatch ((b.fixedLength_le_length s).trans h),
    call_eq_dispatch (htake.symm ▸ b.fixedLength_le_length s), ← dispatch_append htake.ge (args.drop (b.length s)),
    List.take_append_drop]

theorem call_padded (cast : FloatCast) (b : Builtin) (s : Shape) (st : Store) (args : List Value) :
    b.call cast s st (b.padded args) = b.call cast s st args := by
  rw [call_eq_dispatch (b.le_length_padded args), call]

end Builtin

namespace Shape

variable {s : Shape} {args : List Value}

/-- the argument that a missing one stands for -/
def missing (s : Shape) : Value := if s.isBool then .boolean false else .number Binary.zero

theorem toLane_missing (s : Shape) : s.missing.toLane s = .ok (s.cast (.int32 0)) := by
  cases s <;> decide +kernel

theorem create_append (h : s.laneCount ≤ args.length) (more : List Value) :
    s.create (args ++ more) = s.create args := by
  refine Packed.build_congr fun i hi => ?_
  rw [argumentLane, List.getElem?_append_left (hi.trans_le h), argumentLane]

theorem create_append_missing (s : Shape) (args : List Value) (n : Nat) :
    s.create (args ++ List.replicate n s.missing) = s.create args := by
  refine Packed.build_congr fun i _ => ?_
  rw [argumentLane, argumentLane, List.getElem?_append]
  split_ifs with hi
  · rfl
  · rw [List.getElem?_replicate, List.getElem?_eq_none (not_lt.1 hi)]
    split_ifs
    · exact s.toLane_missing
    · rfl

end Shape

/-! ## Calls -/

/-- **Calls by position.** A call looks at no more arguments than the function declares. If some of the fixed parameters
are missing, `undefined` stands for them. Indices of a permutation that are missing are zeros, however many are written
out, while an `undefined` where an index was missing is refused. A constructor looks at one argument for each lane, and
zeros stand for those that are missing, or `false` where lanes are truth values. -/
theorem calls_by_position (cast : FloatCast) (s : Shape) (st : Store) (args : List Value) :
    (∀ b : Builtin,
      (b.length s ≤ args.length → b.call cast s st args = b.call cast s st (args.take (b.length s))) ∧
      (args.length < b.fixedLength → b.call cast s st args =
        b.call cast s st (args ++ List.replicate (b.fixedLength - args.length) .undefined)) ∧
      (b = .swizzle ∨ b = .shuffle →
        (∀ n, b.call cast s st args = b.call cast s st (b.padded args ++ List.replicate n (.number Binary.zero))) ∧
        (b.fixedLength ≤ args.length → args.length < b.length s → (∃ y, (b.call cast s st args).1 = .ok y) →
          b.call cast s st (args ++ [.undefined]) = (refuse .laneIndex, st)))) ∧
    s.create args = s.create (args.take s.laneCount) ∧
    ∀ n, s.create args =
      s.create (args ++ List.replicate n (if s.isBool then .boolean false else .number Binary.zero)) := by
  refine ⟨fun b => ⟨?_, ?_, ?_⟩, ?_, ?_⟩
  · intro h
    exact (b.call_take cast s st args h).symm
  · intro _
    exact (b.call_padded cast s st args).symm
  · intro hb
    constructor
    · intro n
      have hlen := b.le_length_padded args
      have hmore : b.fixedLength ≤ (b.padded args ++ List.replicate n (Value.number Binary.zero)).length :=
        hlen.trans (List.sublist_append_left _ _).length_le
      rw [Builtin.call_eq_dispatch hmore, Builtin.dispatch_append_zeros hb hlen, Builtin.call]
    · rintro h hlength ⟨y, hy⟩
      have hmore : b.fixedLength ≤ (args ++ [Value.undefined]).length :=
        h.trans (List.sublist_append_left _ _).length_le
      rw [Builtin.call_eq_dispatch h] at hy
      rw [Builtin.call_eq_dispatch hmore, Builtin.dispatch_append_undefined hb h hlength hy]
  · rcases Nat.le_total s.laneCount args.length with h | h
    · have htake : s.laneCount ≤ (args.take s.laneCount).length := (List.length_take_of_le h).ge
      rw [← Shape.create_append htake (args.drop s.laneCount), List.take_append_drop]
    · rw [List.take_of_length_le h]
  · intro n
    exact (s.create_append_missing args n).symm

/-- A swizzle with its last two indices missing, and a store that is given one argument too many. -/
theorem calls_by_position_swizzle :
    let v : Packed := ⟨.int32x4, .ints #v[10, 20, 30, 40, 0, 0, 0, 0, 0, 0, 0, 0, 0, 0, 0, 0]⟩
    let u : Packed := ⟨.int32x4, .ints #v[40, 20, 10, 10, 0, 0, 0, 0, 0, 0, 0, 0, 0, 0, 0, 0]⟩
    let st : Store := ⟨[Buffer.ofBytes (List.replicate 16 0)], 0⟩
    let indices : List Value := [.number (Binary.ofNat 3), .string "1"]
    let stored : List Value := [.array ⟨0, .int32, 0, 4⟩, .null, .vector v]
    let call (b : Builtin) := b.call .truncating .int32x4 st
    call .swizzle (.vector v :: indices) = (.ok (.vector u), st) ∧
      call .swizzle (.vector v :: (indices ++ List.replicate 2 (.number Binary.zero))) = (.ok (.vector u), st) ∧
      call .swizzle (.vector v :: (indices ++ [.undefined])) = (refuse .laneIndex, st) ∧
      call (.store .one) (stored ++ [.object 0]) = call (.store .one) stored ∧
      call (.store .one) [] = call (.store .one) (List.replicate 3 .undefined) := by
  intro v u st indices stored call
  have hcall : call .swizzle (.vector v :: indices) = (.ok (.vector u), st) := by decide +kernel
  obtain ⟨hswizzle, -⟩ := calls_by_position .truncating .int32x4 st (.vector v :: indices)
  obtain ⟨hzeros, hundefined⟩ := (hswizzle .swizzle).2.2 (Or.inl rfl)
  have hok : ∃ y, (call .swizzle (.vector v :: indices)).1 = .ok y := ⟨_, congrArg Prod.fst hcall⟩
  obtain ⟨hstore, -⟩ := calls_by_position .truncating .int32x4 st (stored ++ [.object 0])
  obtain ⟨hnone, -⟩ := calls_by_position .truncating .int32x4 st []
  exact ⟨hcall, (hzeros 2).symm.trans hcall, hundefined (by decide) (by decide) hok,
    (hstore (.store .one)).1 (by decide), (hnone (.store .one)).2.1 (by decide)⟩

end Vector128
