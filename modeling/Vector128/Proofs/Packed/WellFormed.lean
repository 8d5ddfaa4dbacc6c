/-
Every vector that an operation makes is well-formed.

A vector is made on one of two routes, and only the first checks what it stores. So the invariant is kept by
each operation for its own reason: `build_makes` for those that set one lane after another, the statements
about filled slots for those that work on the slots of their operands. Those reasons are put together
operation by operation, and call by call.

- `Operation`: the ways to get a vector. `Operation.run` is what one of them returns on a shape,
  `Operation.operands` are the values that have to be well-formed before.
- `result_wellFormed`: if they are, the vector returned is well-formed too, and it is of the shape that the
  operation was invoked on, or the boolean one with as many lanes if the operation compares.
-/
import Vector128.Builtin.Call
import Vector128.Proofs.Packed.Storage

namespace Vector128

open Outcome

/-- a vector has to be well-formed, other values always are -/
def Value.WellFormed : Value → Prop
  | .vector v => v.WellFormed
  | _ => True

instance (x : Value) : Decidable x.WellFormed := by
  unfold Value.WellFormed; split <;> infer_instance

theorem Value.expect_eq_ok {x : Value} {s : Shape} {v : Packed} :
    x.expect s = .ok v ↔ x = .vector v ∧ v.shape = s := by
  cases x with
  | vector u =>
    rw [Value.expect, Packed.expect_eq_ok, Value.vector.injEq]
    constructor
    · rintro ⟨hs, rfl⟩
      exact ⟨rfl, hs⟩
    · rintro ⟨rfl, hs⟩
      exact ⟨hs, rfl⟩
  | _ =>
    constructor
    · intro h
      exact absurd h refuse_ne_ok
    · rintro ⟨hx, -⟩
      cases hx

theorem Shape.laneValue_ne_vector (s : Shape) (l : Lane) (v : Packed) : s.laneValue l ≠ .vector v := by
  cases l <;> exact nofun

/-! ## Operations of shapes -/

/-- whatever vector the outcome gives is well-formed and of the shape -/
def Makes (s : Shape) (result : Outcome Packed) : Prop := ∀ v, result = .ok v → v.WellFormed ∧ v.shape = s

theorem build_makes (s : Shape) (f : Nat → Outcome Lane) : Makes s (Packed.build s f) := by
  intro v h
  obtain ⟨hv, hs, -⟩ := Packed.build_eq_ok_iff.1 h
  exact ⟨hv, hs⟩

theorem refuse_makes (s : Shape) (c : Cause) : Makes s (refuse c) := fun _ h => absurd h refuse_ne_ok

/-- what comes before the last step does not matter -/
theorem bind_makes {α : Type} {s : Shape} {x : Outcome α} {f : α → Outcome Packed}
    (h : ∀ a, x = .ok a → Makes s (f a)) : Makes s (x >>= f) := by
  intro v hv
  obtain ⟨a, ha, hv⟩ := bind_eq_ok.1 hv
  exact h a ha v hv

/-- an operand that was checked is the very vector, and of the shape -/
theorem expect_makes {s t : Shape} {v : Packed} {f : Packed → Outcome Packed} (h : v.shape = t → Makes s (f v)) :
    Makes s (v.expect t >>= f) := by
  refine bind_makes fun w hw => ?_
  obtain ⟨ht, rfl⟩ := Packed.expect_eq_ok.1 hw
  exact h ht

/-- the vector made, as the value that is returned -/
theorem returns_makes {s : Shape} {r : Outcome Packed} {v : Packed} (hr : Makes s r)
    (h : (do return .vector (← r)) = (.ok (.vector v) : Outcome Value)) : v.WellFormed ∧ v.shape = s := by
  obtain ⟨u, hu, h⟩ := bind_eq_ok.1 h
  obtain rfl := Value.vector.inj (pure_eq_ok.1 h)
  exact hr u hu

namespace Shape

variable {s : Shape} {v w : Packed}

theorem create_makes (s : Shape) (args : List Value) : Makes s (s.create args) := build_makes s _

theorem splat_makes (s : Shape) (x : Value) : Makes s (s.splat x) := bind_makes fun _ _ => build_makes s _

theorem check_makes {x : Value} (hx : x.WellFormed) : Makes s (s.check x) := by
  intro v h
  obtain ⟨rfl, hs⟩ := Value.expect_eq_ok.1 h
  exact ⟨hx, hs⟩

theorem replaceLane_makes (s : Shape) (v : Packed) (index x : Value) : Makes s (s.replaceLane v index x) :=
  bind_makes fun _ _ => bind_makes fun _ _ => bind_makes fun _ _ => build_makes s _

theorem swizzle_makes (s : Shape) (v : Packed) (indices : List Value) : Makes s (s.swizzle v indices) :=
  bind_makes fun _ _ => bind_makes fun _ _ => build_makes s _

theorem shuffle_makes (s : Shape) (v w : Packed) (indices : List Value) : Makes s (s.shuffle v w indices) :=
  bind_makes fun _ _ => bind_makes fun _ _ => bind_makes fun _ _ => build_makes s _

theorem select_makes (s : Shape) (selector v w : Packed) : Makes s (s.select selector v w) := by
  refine bind_makes fun v' _ => bind_makes fun w' _ => ?_
  split
  · split_ifs
    · exact build_makes s _
    · exact refuse_makes s _
  · exact refuse_makes s _

theorem unary_makes (hv : v.WellFormed) (op : UnaryOp) : Makes s (s.unary op v) := by
  refine expect_makes fun hs => ?_
  split
  · refine bind_makes fun f _ u hu => ?_
    obtain ⟨hwf, hus, -⟩ := Packed.mapFloats_spec hv hu
    exact ⟨hwf, hus.trans hs⟩
  · refine bind_makes fun f _ u hu => ?_
    obtain ⟨hwf, hus, -⟩ := Packed.mapBools_spec hv hu
    exact ⟨hwf, hus.trans hs⟩
  all_goals
    refine bind_makes fun f _ u hu => ?_
    obtain ⟨hwf, hus, -⟩ := Packed.mapInts_spec hv hu
    exact ⟨hwf, hus.trans hs⟩

theorem binary_makes (hv : v.WellFormed) (op : BinaryOp) : Makes s (s.binary op v w) := by
  refine expect_makes fun hs => expect_makes fun ht => ?_
  have hwv : w.shape = v.shape := ht.trans hs.symm
  split
  · refine bind_makes fun f _ u hu => ?_
    obtain ⟨hwf, hus, -⟩ := Packed.zipFloats_spec hwv hv hu
    exact ⟨hwf, hus.trans hs⟩
  · refine bind_makes fun f _ u hu => ?_
    obtain ⟨hwf, hus, -⟩ := Packed.zipBools_spec hwv hv hu
    exact ⟨hwf, hus.trans hs⟩
  all_goals
    refine bind_makes fun f _ u hu => ?_
    obtain ⟨hwf, hus, -⟩ := Packed.zipInts_spec hwv hv hu
    exact ⟨hwf, hus.trans hs⟩

/-- a comparison changes the shape; it fills boolean slots whatever its operands hold -/
theorem compare_makes (s : Shape) (op : Comparison) (v w : Packed) : Makes s.boolShape (s.compare op v w) := by
  refine expect_makes fun hs => expect_makes fun _ u hu => ?_
  subst hs
  have hb := isBool_boolShape v.shape
  unfold Packed.zipTests at hu
  rw [← laneCount_boolShape] at hu
  split at hu
  · obtain rfl := Except.ok.inj hu
    exact ⟨Packed.filledBools hb _, rfl⟩
  · obtain rfl := Except.ok.inj hu
    exact ⟨Packed.filledBools hb _, rfl⟩
  · cases hu

theorem shiftLeft_makes (hv : v.WellFormed) (amount : Value) : Makes s (s.shiftLeft v amount) := by
  refine expect_makes fun hs => bind_makes fun k _ u hu => ?_
  obtain ⟨hwf, hus, -⟩ := Packed.mapInts_spec hv hu
  exact ⟨hwf, hus.trans hs⟩

theorem shiftRight_makes (hv : v.WellFormed) (amount : Value) : Makes s (s.shiftRight v amount) := by
  refine expect_makes fun hs => bind_makes fun k _ u hu => ?_
  obtain ⟨hwf, hus, -⟩ := Packed.mapInts_spec hv hu
  exact ⟨hwf, hus.trans hs⟩

theorem convert_makes (cast : FloatCast) (s source : Shape) (v : Packed) : Makes s (s.convert cast source v) := by
  unfold convert
  split_ifs
  · exact bind_makes fun _ _ => build_makes s _
  · exact refuse_makes s _

end Shape

theorem Region.loadVector_makes {σ : Type} (p : Region σ) (st : σ) (offset : Nat) (s : Shape) (count : Nat) :
    Makes s (p.loadVector st offset s count) :=
  bind_makes fun _ _ => build_makes s _

namespace Shape

variable {s : Shape}

theorem reinterpret_makes (s source : Shape) (v : Packed) : Makes s (s.reinterpret source v) := by
  unfold reinterpret
  split_ifs
  · exact refuse_makes s _
  · exact refuse_makes s _
  · refine bind_makes fun w _ u hu => ?_
    split at hu
    · exact Region.loadVector_makes _ _ _ s _ u (mapError_eq_ok.1 hu)
    · cases hu
  · exact bind_makes fun _ _ _ hu => nomatch hu

theorem load_makes (s : Shape) (st : Store) (target index : Value) (count : Nat) :
    Makes s (s.load st target index count) := by
  refine bind_makes fun _ _ => bind_makes fun place _ u hu => ?_
  exact Region.loadVector_makes _ _ _ s _ u (mapError_eq_ok.1 hu)

theorem extractLane_ne_vector (s : Shape) (v : Packed) (index : Value) (w : Packed) :
    s.extractLane v index ≠ .ok (.vector w) := by
  intro h
  obtain ⟨u, -, h⟩ := bind_eq_ok.1 h
  obtain ⟨i, -, h⟩ := bind_eq_ok.1 h
  obtain ⟨l, -, h⟩ := bind_eq_ok.1 h
  exact s.laneValue_ne_vector l w (pure_eq_ok.1 h)

theorem storePlan_eq_ok {st : Store} {target index x : Value} {count : Nat} {plan : Packed × View × Nat}
    (h : s.storePlan st target index x count = .ok plan) :
    s.transfers count = .ok () ∧ x = .vector plan.1 ∧ plan.1.shape = s ∧
      s.locate st target index count = .ok plan.2 := by
  obtain ⟨⟨⟩, ht, h⟩ := bind_eq_ok.1 h
  split at h
  · obtain ⟨v, hv, h⟩ := bind_eq_ok.1 h
    obtain ⟨place, hplace, h⟩ := bind_eq_ok.1 h
    obtain rfl := pure_eq_ok.1 h
    obtain ⟨hx, hs⟩ := Value.expect_eq_ok.1 hv
    exact ⟨ht, hx, hs, hplace⟩
  · cases h

theorem store_makes {x : Value} (hx : x.WellFormed) (st : Store) (target index : Value) (count : Nat) :
    Makes s (s.store st target index x count).1 := by
  intro v h
  unfold store at h
  split at h
  · cases h
  · rename_i u view offset hplan
    obtain ⟨-, rfl, hs, -⟩ := storePlan_eq_ok hplan
    obtain ⟨-, -, rfl⟩ := map_eq_ok.1 h
    exact ⟨hx, hs⟩

end Shape

/-! ## Calls -/

namespace Builtin

variable {s : Shape} {st : Store} {args : List Value} {v : Packed}

theorem argument_mem {i : Nat} {x : Value} (h : argument args i = .ok x) : x ∈ args := by
  unfold argument at h
  split at h
  · rename_i y hy
    obtain rfl := Except.ok.inj h
    exact List.mem_of_getElem? hy
  · cases h

theorem operand_wellFormed (hargs : ∀ x ∈ args, x.WellFormed) {i : Nat} (h : operand s args i = .ok v) :
    v.WellFormed := by
  obtain ⟨x, hx, h⟩ := bind_eq_ok.1 h
  obtain ⟨rfl, -⟩ := Value.expect_eq_ok.1 h
  exact hargs _ (argument_mem hx)

theorem padded_wellFormed (b : Builtin) (hargs : ∀ x ∈ args, x.WellFormed) : ∀ x ∈ b.padded args, x.WellFormed := by
  intro x hx
  rcases List.mem_append.1 hx with h | h
  · exact hargs x h
  · obtain rfl := List.eq_of_mem_replicate h
    trivial

/-- the shape of the vectors that a function returns -/
def resultShape (s : Shape) : Builtin → Shape
  | compare _ => s.boolShape
  | _ => s

/-- **Every function keeps the invariant**: on well-formed arguments, whichever vector it returns is
well-formed. -/
theorem dispatch_wellFormed {cast : FloatCast} {b : Builtin} (hargs : ∀ x ∈ args, x.WellFormed)
    (h : (b.dispatch cast s st args).1 = .ok (.vector v)) : v.WellFormed ∧ v.shape = b.resultShape s := by
  cases b with
  | splat =>
    obtain ⟨x, -, h⟩ := bind_eq_ok.1 h
    exact returns_makes (s.splat_makes x) h
  | check =>
    obtain ⟨x, hx, h⟩ := bind_eq_ok.1 h
    exact returns_makes (Shape.check_makes (hargs x (argument_mem hx))) h
  | unary op =>
    obtain ⟨a, ha, h⟩ := bind_eq_ok.1 h
    exact returns_makes (Shape.unary_makes (operand_wellFormed hargs ha) op) h
  | binary op =>
    obtain ⟨a, ha, h⟩ := bind_eq_ok.1 h
    obtain ⟨c, hc, h⟩ := bind_eq_ok.1 h
    exact returns_makes (Shape.binary_makes (operand_wellFormed hargs ha) op) h
  | compare op =>
    obtain ⟨a, ha, h⟩ := bind_eq_ok.1 h
    obtain ⟨c, hc, h⟩ := bind_eq_ok.1 h
    exact returns_makes (s.compare_makes op a c) h
  | anyTrue =>
    obtain ⟨a, -, h⟩ := bind_eq_ok.1 h
    obtain ⟨t, -, h⟩ := bind_eq_ok.1 h
    cases h
  | allTrue =>
    obtain ⟨a, -, h⟩ := bind_eq_ok.1 h
    obtain ⟨t, -, h⟩ := bind_eq_ok.1 h
    cases h
  | select =>
    obtain ⟨x, -, h⟩ := bind_eq_ok.1 h
    obtain ⟨picks, -, h⟩ := bind_eq_ok.1 h
    obtain ⟨a, -, h⟩ := bind_eq_ok.1 h
    obtain ⟨c, -, h⟩ := bind_eq_ok.1 h
    exact returns_makes (s.select_makes picks a c) h
  | shiftLeft =>
    obtain ⟨a, ha, h⟩ := bind_eq_ok.1 h
    obtain ⟨x, -, h⟩ := bind_eq_ok.1 h
    exact returns_makes (Shape.shiftLeft_makes (operand_wellFormed hargs ha) x) h
  | shiftRight =>
    obtain ⟨a, ha, h⟩ := bind_eq_ok.1 h
    obtain ⟨x, -, h⟩ := bind_eq_ok.1 h
    exact returns_makes (Shape.shiftRight_makes (operand_wellFormed hargs ha) x) h
  | extractLane =>
    obtain ⟨a, -, h⟩ := bind_eq_ok.1 h
    obtain ⟨x, -, h⟩ := bind_eq_ok.1 h
    exact absurd h (s.extractLane_ne_vector a x v)
  | replaceLane =>
    obtain ⟨a, -, h⟩ := bind_eq_ok.1 h
    obtain ⟨x, -, h⟩ := bind_eq_ok.1 h
    obtain ⟨y, -, h⟩ := bind_eq_ok.1 h
    exact returns_makes (s.replaceLane_makes a x y) h
  | load amount =>
    obtain ⟨target, -, h⟩ := bind_eq_ok.1 h
    obtain ⟨index, -, h⟩ := bind_eq_ok.1 h
    exact returns_makes (s.load_makes st target index _) h
  | store amount =>
    obtain ⟨u, hu, huv⟩ := map_eq_ok.1 h
    obtain rfl := Value.vector.inj huv
    split at hu
    · exact Shape.store_makes (hargs _ (by simp)) st _ _ _ u hu
    · cases hu
  | swizzle =>
    obtain ⟨a, -, h⟩ := bind_eq_ok.1 h
    obtain ⟨picks, -, h⟩ := bind_eq_ok.1 h
    exact returns_makes (s.swizzle_makes a picks) h
  | shuffle =>
    obtain ⟨a, -, h⟩ := bind_eq_ok.1 h
    obtain ⟨c, -, h⟩ := bind_eq_ok.1 h
    obtain ⟨picks, -, h⟩ := bind_eq_ok.1 h
    exact returns_makes (s.shuffle_makes a c picks) h
  | convert source =>
    obtain ⟨a, -, h⟩ := bind_eq_ok.1 h
    exact returns_makes (s.convert_makes cast source a) h
  | reinterpret source =>
    obtain ⟨a, -, h⟩ := bind_eq_ok.1 h
    exact returns_makes (s.reinterpret_makes source a) h

end Builtin

/-! ## All operations -/

/-- the ways to get a vector, each with what it takes besides a shape -/
inductive Operation : Type 1
  | zero
  | build (lane : Nat → Outcome Lane)
  | create (args : List Value)
  | splat (x : Value)
  | check (x : Value)
  | replaceLane (v : Packed) (index x : Value)
  | swizzle (v : Packed) (indices : List Value)
  | shuffle (v w : Packed) (indices : List Value)
  | select (selector v w : Packed)
  | unary (op : UnaryOp) (v : Packed)
  | binary (op : BinaryOp) (v w : Packed)
  | compare (op : Comparison) (v w : Packed)
  | shiftLeft (v : Packed) (amount : Value)
  | shiftRight (v : Packed) (amount : Value)
  | convert (cast : FloatCast) (source : Shape) (v : Packed)
  | reinterpret (source : Shape) (v : Packed)
  /-- from any region whatsoever, in any state of it -/
  | loadVector {σ : Type} (region : Region σ) (state : σ) (offset count : Nat)
  | load (st : Store) (target index : Value) (count : Nat)
  | store (st : Store) (target index x : Value) (count : Nat)
  | call (cast : FloatCast) (b : Builtin) (st : Store) (args : List Value)

namespace Operation

/-- what the operation returns when it is invoked on a shape -/
def run (s : Shape) : Operation → Outcome Value
  | zero => .ok (.vector (Packed.zero s))
  | build lane => do return .vector (← Packed.build s lane)
  | create args => do return .vector (← s.create args)
  | splat x => do return .vector (← s.splat x)
  | check x => do return .vector (← s.check x)
  | replaceLane v index x => do return .vector (← s.replaceLane v index x)
  | swizzle v indices => do return .vector (← s.swizzle v indices)
  | shuffle v w indices => do return .vector (← s.shuffle v w indices)
  | select selector v w => do return .vector (← s.select selector v w)
  | unary op v => do return .vector (← s.unary op v)
  | binary op v w => do return .vector (← s.binary op v w)
  | compare op v w => do return .vector (← s.compare op v w)
  | shiftLeft v amount => do return .vector (← s.shiftLeft v amount)
  | shiftRight v amount => do return .vector (← s.shiftRight v amount)
  | convert cast source v => do return .vector (← s.convert cast source v)
  | reinterpret source v => do return .vector (← s.reinterpret source v)
  | loadVector region state offset count => do return .vector (← region.loadVector state offset s count)
  | load st target index count => do return .vector (← s.load st target index count)
  | store st target index x count => do return .vector (← (s.store st target index x count).1)
  | call cast b st args => (b.call cast s st args).1

/-- the values that the operation works on -/
def operands : Operation → List Value
  | zero | build _ | loadVector .. => []
  | create args | call _ _ _ args => args
  | splat x | check x => [x]
  | replaceLane v index x => [.vector v, index, x]
  | swizzle v indices => .vector v :: indices
  | shuffle v w indices => .vector v :: .vector w :: indices
  | select selector v w => [.vector selector, .vector v, .vector w]
  | unary _ v | convert _ _ v | reinterpret _ v => [.vector v]
  | binary _ v w | compare _ v w => [.vector v, .vector w]
  | shiftLeft v amount | shiftRight v amount => [.vector v, amount]
  | load _ target index _ => [target, index]
  | store _ target index x _ => [target, index, x]

/-- the shape of the vectors that the operation returns -/
def resultShape (s : Shape) : Operation → Shape
  | compare .. => s.boolShape
  | call _ b _ _ => b.resultShape s
  | _ => s

end Operation

/-- **Every vector that an operation returns is well-formed**, if the vectors among its operands are, and it
is of the shape that the operation was invoked on, save for comparisons, which return boolean vectors. Nothing
is asked of the other operands, of their number, or of the bytes that a load reads. -/
theorem result_wellFormed (s : Shape) (op : Operation) (v : Packed) (hop : ∀ x ∈ op.operands, x.WellFormed)
    (h : op.run s = .ok (.vector v)) : v.WellFormed ∧ v.shape = op.resultShape s := by
  cases op with
  | zero =>
    obtain rfl := Value.vector.inj (Except.ok.inj h)
    exact ⟨Packed.wellFormed_zero s, rfl⟩
  | build lane => exact returns_makes (build_makes s lane) h
  | create args => exact returns_makes (s.create_makes args) h
  | splat x => exact returns_makes (s.splat_makes x) h
  | check x => exact returns_makes (Shape.check_makes (hop x (by simp [Operation.operands]))) h
  | replaceLane w index x => exact returns_makes (s.replaceLane_makes w index x) h
  | swizzle w indices => exact returns_makes (s.swizzle_makes w indices) h
  | shuffle w u indices => exact returns_makes (s.shuffle_makes w u indices) h
  | select selector w u => exact returns_makes (s.select_makes selector w u) h
  | unary op w => exact returns_makes (Shape.unary_makes (hop (.vector w) (by simp [Operation.operands])) op) h
  | binary op w u => exact returns_makes (Shape.binary_makes (hop (.vector w) (by simp [Operation.operands])) op) h
  | compare op w u => exact returns_makes (s.compare_makes op w u) h
  | shiftLeft w amount =>
    exact returns_makes (Shape.shiftLeft_makes (hop (.vector w) (by simp [Operation.operands])) amount) h
  | shiftRight w amount =>
    exact returns_makes (Shape.shiftRight_makes (hop (.vector w) (by simp [Operation.operands])) amount) h
  | convert cast source w => exact returns_makes (s.convert_makes cast source w) h
  | reinterpret source w => exact returns_makes (s.reinterpret_makes source w) h
  | loadVector region state offset count => exact returns_makes (region.loadVector_makes state offset s count) h
  | load st target index count => exact returns_makes (s.load_makes st target index count) h
  | store st target index x count =>
    exact returns_makes (Shape.store_makes (hop x (by simp [Operation.operands])) st target index count) h
  | call cast b st args => exact Builtin.dispatch_wellFormed (b.padded_wellFormed hop) h

/-- bytes of ones plus bytes of ones: the sums are cut to the width and stored with its sign, as -2 -/
theorem result_wellFormed_add :
    let v : Packed := ⟨.uint8x16, .ints (Vector.replicate 16 (-1))⟩
    let w : Packed := ⟨.uint8x16, .ints (Vector.replicate 16 (-2))⟩
    let sum : Operation := .call .truncating (.binary .add) Store.empty [.vector v, .vector v]
    sum.run .uint8x16 = .ok (.vector w) ∧ w.WellFormed ∧ w.shape = .uint8x16 := by
  intro v w sum
  have h : sum.run .uint8x16 = .ok (.vector w) := by decide
  exact ⟨h, result_wellFormed .uint8x16 sum w (by decide) h⟩

end Vector128
