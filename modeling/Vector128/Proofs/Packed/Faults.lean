/-
What the operations on vectors can fail with.

An operation that its shape has fails for reasons that lie in its operands (`Cause.ofOperands`): it is never a misuse,
and it never says that the shape lacks it. `FailsOnly` states this of an outcome. A chain of steps is taken apart by
`failsOnly_bind`, which hands to each step what the steps before it found out, and a loop over lanes by
`build_failsOnly`: every lane is of the kind of the shape, so setting it never fails.

The operations on a kind of lanes are tables, and so is the availability of functions. `UnaryOp.onInts_isSome` …
`BinaryOp.onBools_isSome` say that the tables agree.
-/
import Vector128.Proofs.Memory.Reinterpret
import Vector128.Proofs.Packed.Cast
import Vector128.Proofs.Packed.LaneIndex

namespace Vector128

/-- whether the cause lies in the operands, neither in the choice of the operation nor in the host -/
def Cause.ofOperands : Cause → Bool
  | unsupported | host _ _ => false
  | _ => true

/-- an error that a script sees, because of the operands -/
def Fault.OfOperands (fault : Fault) : Prop := ∃ c, fault = .script c ∧ c.ofOperands = true

theorem Cause.message_ne_unsupported {c : Cause} (h : c.ofOperands = true) : c.message ≠ Cause.unsupported.message := by
  cases c with
  | unsupported => cases h
  | host kind message => cases h
  | conversion fault => cases fault <;> decide
  | _ => decide

/-! ## Outcomes -/

namespace Outcome

variable {α β : Type} {P Q : Fault → Prop} {x : Outcome α}

/-- whichever fault the outcome is, it is one of these -/
def FailsOnly (P : Fault → Prop) (x : Outcome α) : Prop := ∀ fault, x = .error fault → P fault

theorem failsOnly_ok (a : α) : FailsOnly P (.ok a) := nofun

theorem failsOnly_error {fault : Fault} (h : P fault) : FailsOnly P (.error fault : Outcome α) := by
  intro fault' h'
  obtain rfl := Except.error.inj h'
  exact h

/-- a fault says nothing about the type of the value that there is none of -/
theorem FailsOnly.of_error {fault : Fault} (h : FailsOnly P (.error fault : Outcome α)) : P fault := h fault rfl

theorem failsOnly_refuse {c : Cause} (h : c.ofOperands = true) : FailsOnly Fault.OfOperands (refuse c : Outcome α) :=
  failsOnly_error ⟨c, rfl, h⟩

/-- a step is looked at with the result of the one before it -/
theorem failsOnly_bind {f : α → Outcome β} (hx : FailsOnly P x) (hf : ∀ a, x = .ok a → FailsOnly P (f a)) :
    FailsOnly P (x >>= f) := by
  cases x with
  | error fault => exact failsOnly_error hx.of_error
  | ok a => exact hf a rfl

theorem failsOnly_map {f : α → β} (hx : FailsOnly P x) : FailsOnly P (x.map f) := by
  cases x with
  | error fault => exact failsOnly_error hx.of_error
  | ok a => exact failsOnly_ok (f a)

theorem failsOnly_mapError {g : Fault → Fault} (hx : FailsOnly P x) (hg : ∀ fault, P fault → Q (g fault)) :
    FailsOnly Q (x.mapError g) := by
  cases x with
  | error fault => exact failsOnly_error (hg fault hx.of_error)
  | ok a => exact failsOnly_ok a

/-- the results of a row of steps, and what each of them has -/
theorem failsOnly_mapM {f : α → Outcome β} {R : β → Prop} (row : List α) (hf : ∀ a ∈ row, FailsOnly P (f a))
    (hR : ∀ a ∈ row, ∀ b, f a = .ok b → R b) :
    FailsOnly P (row.mapM f) ∧ ∀ results, row.mapM f = .ok results → ∀ b ∈ results, R b := by
  induction row with
  | nil =>
    refine ⟨nofun, ?_⟩
    intro results h
    obtain rfl := Except.ok.inj h
    exact nofun
  | cons a row ih =>
    obtain ⟨ihfails, ihR⟩ := ih (fun a' h => hf a' (List.mem_cons_of_mem a h))
      (fun a' h => hR a' (List.mem_cons_of_mem a h))
    rw [List.mapM_cons]
    refine ⟨failsOnly_bind (hf a List.mem_cons_self) fun _ _ => failsOnly_bind ihfails fun _ _ => failsOnly_ok _, ?_⟩
    intro results h
    obtain ⟨b, hb, h⟩ := bind_eq_ok.1 h
    obtain ⟨rest, hrest, h⟩ := bind_eq_ok.1 h
    obtain rfl := pure_eq_ok.1 h
    intro c hc
    rcases List.mem_cons.1 hc with rfl | hc
    · exact hR a List.mem_cons_self c hb
    · exact ihR rest hrest c hc

end Outcome

open Outcome

section Build

variable {s : Shape} {P : Fault → Prop} {f : Nat → Outcome Lane}

/-- setting lanes of the shape's kind fails only where a lane asked for does -/
theorem build_failsOnly (hf : ∀ i < s.laneCount, FailsOnly P (f i))
    (hl : ∀ i < s.laneCount, ∀ l, f i = .ok l → s.accepts l = true) : FailsOnly P (Packed.build s f) := by
  -- the loop, stopped after any number of lanes
  suffices h : ∀ n ≤ s.laneCount, FailsOnly P (Packed.buildUpTo s f n) from h s.laneCount le_rfl
  intro n hn
  induction n with
  | zero => exact nofun
  | succ n ih =>
    rw [Packed.buildUpTo_succ]
    refine failsOnly_bind (ih (by omega)) fun v hv => failsOnly_bind (hf n hn) fun l hlane => ?_
    obtain ⟨hwf, rfl, -⟩ := Packed.buildUpTo_spec hv
    obtain ⟨w, hw⟩ := hwf.setLane_exists hn (hl n hn l hlane)
    rw [hw]
    exact failsOnly_ok w

end Build

namespace Packed

variable {v w : Packed}

theorem expect_failsOnly (v : Packed) (s : Shape) : FailsOnly Fault.OfOperands (v.expect s) := by
  unfold expect
  split_ifs
  · exact failsOnly_ok v
  · exact failsOnly_refuse rfl

/-- an operand is looked at further only if it is of the shape -/
theorem expect_bind_failsOnly {α : Type} {s : Shape} {f : Packed → Outcome α}
    (hf : v.shape = s → FailsOnly Fault.OfOperands (f v)) : FailsOnly Fault.OfOperands (v.expect s >>= f) := by
  refine failsOnly_bind (v.expect_failsOnly s) fun u hu => ?_
  obtain ⟨hs, rfl⟩ := expect_eq_ok.1 hu
  exact hf hs

theorem laneAt_eq_ok {i : Nat} (hi : i < v.shape.laneCount) : v.laneAt i = .ok (v.lane i) := if_pos hi

theorem build_failsOnly_of_lanes {s : Shape} {P : Fault → Prop} {f : Nat → Outcome Lane}
    (hf : ∀ i < s.laneCount, ∃ v : Packed, ∃ j, v.WellFormed ∧ v.shape = s ∧ f i = .ok (v.lane j)) :
    FailsOnly P (build s f) := by
  apply build_failsOnly
  · intro i hi
    obtain ⟨v, j, -, -, hlane⟩ := hf i hi
    rw [hlane]
    exact failsOnly_ok _
  · intro i hi l hl
    obtain ⟨v, j, hv, rfl, hlane⟩ := hf i hi
    obtain rfl := Except.ok.inj (hlane.symm.trans hl)
    exact hv.accepts j

end Packed

theorem Value.expect_failsOnly (x : Value) (s : Shape) : FailsOnly Fault.OfOperands (x.expect s) := by
  cases x with
  | vector v => exact v.expect_failsOnly s
  | _ => exact failsOnly_refuse rfl

theorem Value.toNumber_failsOnly (x : Value) : FailsOnly Fault.OfOperands x.toNumber := by
  cases x with
  | vector v => exact failsOnly_refuse rfl
  | _ => exact nofun

theorem Value.toLane_failsOnly (s : Shape) (x : Value) : FailsOnly Fault.OfOperands (x.toLane s) := by
  unfold toLane
  split_ifs
  · exact failsOnly_ok _
  · exact failsOnly_map x.toNumber_failsOnly

theorem Value.accepts_toLane {s : Shape} {x : Value} {l : Lane} (h : x.toLane s = .ok l) : s.accepts l = true := by
  unfold toLane at h
  split_ifs at h with hs
  · obtain rfl := Except.ok.inj h
    exact hs
  · obtain ⟨n, -, rfl⟩ := map_eq_ok.1 h
    exact s.accepts_cast _

theorem laneIndex_failsOnly (limit : Nat) (x : Value) : FailsOnly Fault.OfOperands (laneIndex limit x) := by
  refine failsOnly_bind x.toNumber_failsOnly fun n _ => ?_
  dsimp only
  split_ifs
  · exact failsOnly_ok _
  · exact failsOnly_refuse rfl

/-! ## Tables -/

/-- a variant that the shape has is run -/
theorem failsOnly_orUnsupported {α β : Type} {P : Fault → Prop} {variant : Option α} {f : α → Outcome β}
    (h : variant.isSome = true) (hf : ∀ a, FailsOnly P (f a)) : FailsOnly P (orUnsupported variant >>= f) := by
  obtain ⟨a, rfl⟩ := Option.isSome_iff_exists.1 h
  exact hf a

namespace UnaryOp

variable {s : Shape} (op : UnaryOp) (h : (Builtin.unary op).isSupported s = true)
include h

theorem onInts_isSome (hs : s.isInteger = true) : op.onInts.isSome = true := by
  cases op <;> first | rfl | (cases s <;> cases hs <;> cases h)

theorem onFloats_isSome (hs : s.isFloat = true) : op.onFloats.isSome = true := by
  rw [Shape.eq_float32x4 hs] at h
  cases op <;> first | rfl | cases h

theorem onBools_isSome (hs : s.isBool = true) : op.onBools.isSome = true := by
  cases op <;> first | rfl | (cases s <;> cases hs <;> cases h)

end UnaryOp

namespace BinaryOp

variable {s : Shape} (op : BinaryOp) (h : (Builtin.binary op).isSupported s = true)
include h

theorem onInts_isSome (hs : s.isInteger = true) : (op.onInts s).isSome = true := by
  cases op <;> first | rfl | (cases s <;> cases hs <;> cases h)

theorem onFloats_isSome (hs : s.isFloat = true) : op.onFloats.isSome = true := by
  rw [Shape.eq_float32x4 hs] at h
  cases op <;> first | rfl | cases h

theorem onBools_isSome (hs : s.isBool = true) : op.onBools.isSome = true := by
  cases op <;> first | rfl | (cases s <;> cases hs <;> cases h)

end BinaryOp

/-! ## Operations -/

namespace Shape

variable {s source : Shape} {v w : Packed}

theorem unary_failsOnly {op : UnaryOp} (hop : (Builtin.unary op).isSupported s = true) (hv : v.WellFormed) :
    FailsOnly Fault.OfOperands (s.unary op v) := by
  apply Packed.expect_bind_failsOnly
  rintro rfl
  cases hk : v.shape.kind with
  | float =>
    have hs : v.shape.isFloat = true := by rw [isFloat, hk]; rfl
    obtain ⟨a, ha⟩ := hv.floats hs
    refine failsOnly_orUnsupported (op.onFloats_isSome hop hs) fun f => ?_
    rw [Packed.mapFloats, ha]
    exact failsOnly_ok _
  | bool =>
    have hs : v.shape.isBool = true := by rw [isBool, hk]; rfl
    obtain ⟨a, ha⟩ := hv.bools hs
    refine failsOnly_orUnsupported (op.onBools_isSome hop hs) fun f => ?_
    rw [Packed.mapBools, ha]
    exact failsOnly_ok _
  | signed | unsigned =>
    have hs : v.shape.isInteger = true := by rw [isInteger, hk]; rfl
    obtain ⟨a, ha⟩ := hv.ints hs
    refine failsOnly_orUnsupported (op.onInts_isSome hop hs) fun f => ?_
    rw [Packed.mapInts, ha]
    exact failsOnly_ok _

theorem binary_failsOnly {op : BinaryOp} (hop : (Builtin.binary op).isSupported s = true) (hv : v.WellFormed)
    (hw : w.WellFormed) : FailsOnly Fault.OfOperands (s.binary op v w) := by
  apply Packed.expect_bind_failsOnly
  rintro rfl
  apply Packed.expect_bind_failsOnly
  intro hws
  cases hk : v.shape.kind with
  | float =>
    have hs : v.shape.isFloat = true := by rw [isFloat, hk]; rfl
    obtain ⟨a, ha⟩ := hv.floats hs
    obtain ⟨b, hb⟩ := hw.floats (hws ▸ hs)
    refine failsOnly_orUnsupported (op.onFloats_isSome hop hs) fun f => ?_
    rw [Packed.zipFloats, ha, hb]
    exact failsOnly_ok _
  | bool =>
    have hs : v.shape.isBool = true := by rw [isBool, hk]; rfl
    obtain ⟨a, ha⟩ := hv.bools hs
    obtain ⟨b, hb⟩ := hw.bools (hws ▸ hs)
    refine failsOnly_orUnsupported (op.onBools_isSome hop hs) fun f => ?_
    rw [Packed.zipBools, ha, hb]
    exact failsOnly_ok _
  | signed | unsigned =>
    have hs : v.shape.isInteger = true := by rw [isInteger, hk]; rfl
    obtain ⟨a, ha⟩ := hv.ints hs
    obtain ⟨b, hb⟩ := hw.ints (hws ▸ hs)
    refine failsOnly_orUnsupported (op.onInts_isSome hop hs) fun f => ?_
    rw [Packed.zipInts, ha, hb]
    exact failsOnly_ok _

theorem compare_failsOnly (hs : s.isBool = false) (op : Comparison) (hv : v.WellFormed) (hw : w.WellFormed) :
    FailsOnly Fault.OfOperands (s.compare op v w) := by
  apply Packed.expect_bind_failsOnly
  rintro rfl
  apply Packed.expect_bind_failsOnly
  intro hws
  rw [Packed.zipTests]
  rcases v.shape.kind_cases with hf | hi | hb
  · obtain ⟨a, ha⟩ := hv.floats hf
    obtain ⟨b, hb⟩ := hw.floats (hws ▸ hf)
    rw [ha, hb]
    exact failsOnly_ok _
  · obtain ⟨a, ha⟩ := hv.ints hi
    obtain ⟨b, hb⟩ := hw.ints (hws ▸ hi)
    rw [ha, hb]
    exact failsOnly_ok _
  · rw [hs] at hb
    cases hb

theorem truths_failsOnly (hs : s.isBool = true) (hv : v.WellFormed) : FailsOnly Fault.OfOperands (s.truths v) := by
  apply Packed.expect_bind_failsOnly
  rintro rfl
  obtain ⟨a, ha⟩ := hv.bools hs
  rw [ha]
  exact failsOnly_ok _

theorem select_failsOnly (hv : v.WellFormed) (hw : w.WellFormed) (selector : Packed) :
    FailsOnly Fault.OfOperands (s.select selector v w) := by
  apply Packed.expect_bind_failsOnly
  rintro rfl
  apply Packed.expect_bind_failsOnly
  intro hws
  split
  · rename_i picks hpicks
    split_ifs
    · apply Packed.build_failsOnly_of_lanes
      intro i hi
      split_ifs
      · exact ⟨v, i, hv, rfl, Packed.laneAt_eq_ok hi⟩
      · exact ⟨w, i, hw, hws, Packed.laneAt_eq_ok (hws ▸ hi)⟩
    · exact failsOnly_refuse rfl
  · exact failsOnly_refuse rfl

theorem shiftAmount_failsOnly (s : Shape) (x : Value) : FailsOnly Fault.OfOperands (s.shiftAmount x) :=
  failsOnly_map x.toNumber_failsOnly

theorem shiftLeft_failsOnly (hs : s.isInteger = true) (hv : v.WellFormed) (amount : Value) :
    FailsOnly Fault.OfOperands (s.shiftLeft v amount) := by
  apply Packed.expect_bind_failsOnly
  rintro rfl
  obtain ⟨a, ha⟩ := hv.ints hs
  refine failsOnly_bind (v.shape.shiftAmount_failsOnly amount) fun k _ => ?_
  rw [Packed.mapInts, ha]
  exact failsOnly_ok _

theorem shiftRight_failsOnly (hs : s.isInteger = true) (hv : v.WellFormed) (amount : Value) :
    FailsOnly Fault.OfOperands (s.shiftRight v amount) := by
  apply Packed.expect_bind_failsOnly
  rintro rfl
  obtain ⟨a, ha⟩ := hv.ints hs
  refine failsOnly_bind (v.shape.shiftAmount_failsOnly amount) fun k _ => ?_
  rw [Packed.mapInts, ha]
  exact failsOnly_ok _

theorem splat_failsOnly (s : Shape) (x : Value) : FailsOnly Fault.OfOperands (s.splat x) := by
  refine failsOnly_bind (x.toLane_failsOnly s) fun l hl => ?_
  apply build_failsOnly
  · intro i _
    exact failsOnly_ok l
  · intro i _ l' hl'
    obtain rfl := Except.ok.inj hl'
    exact Value.accepts_toLane hl

theorem extractLane_failsOnly (s : Shape) (v : Packed) (index : Value) :
    FailsOnly Fault.OfOperands (s.extractLane v index) := by
  apply Packed.expect_bind_failsOnly
  rintro rfl
  refine failsOnly_bind (laneIndex_failsOnly _ index) fun i hi => ?_
  rw [Packed.laneAt_eq_ok (laneIndex_lt hi)]
  exact failsOnly_ok _

theorem replaceLane_failsOnly (hv : v.WellFormed) (index x : Value) :
    FailsOnly Fault.OfOperands (s.replaceLane v index x) := by
  apply Packed.expect_bind_failsOnly
  rintro rfl
  refine failsOnly_bind (laneIndex_failsOnly _ index) fun i _ => ?_
  refine failsOnly_bind (x.toLane_failsOnly _) fun l hl => ?_
  apply build_failsOnly
  · intro j hj
    rw [Packed.laneAt_eq_ok hj]
    split_ifs <;> exact failsOnly_ok _
  · intro j hj l' hl'
    rw [Packed.laneAt_eq_ok hj] at hl'
    split_ifs at hl'
    · obtain rfl := Except.ok.inj hl'
      exact Value.accepts_toLane hl
    · obtain rfl := Except.ok.inj hl'
      exact hv.accepts j

/-- lane indices that were accepted are lanes, and so is the zero that stands for a missing one -/
theorem laneIndices_failsOnly (s : Shape) (limit : Nat) (indices : List Value) :
    FailsOnly Fault.OfOperands (s.laneIndices limit indices) ∧
      ∀ picks, s.laneIndices limit indices = .ok picks → 0 < limit → ∀ i, picks.getD i 0 < limit := by
  obtain ⟨hfails, hlt⟩ := failsOnly_mapM (P := Fault.OfOperands) (R := (· < limit)) (indices.take s.laneCount)
    (fun x _ => laneIndex_failsOnly limit x) fun x _ i hi => laneIndex_lt hi
  refine ⟨hfails, fun picks hpicks hpos i => ?_⟩
  rw [List.getD_eq_getElem?_getD]
  cases hi : picks[i]? with
  | none => exact hpos
  | some pick => exact hlt picks hpicks pick (List.mem_of_getElem? hi)

theorem swizzle_failsOnly (hv : v.WellFormed) (indices : List Value) :
    FailsOnly Fault.OfOperands (s.swizzle v indices) := by
  apply Packed.expect_bind_failsOnly
  rintro rfl
  obtain ⟨hfails, hlt⟩ := v.shape.laneIndices_failsOnly v.shape.laneCount indices
  refine failsOnly_bind hfails fun picks hpicks => ?_
  apply Packed.build_failsOnly_of_lanes
  intro i _
  exact ⟨v, _, hv, rfl, Packed.laneAt_eq_ok (hlt picks hpicks v.shape.laneCount_pos i)⟩

theorem shuffle_failsOnly (hv : v.WellFormed) (hw : w.WellFormed) (indices : List Value) :
    FailsOnly Fault.OfOperands (s.shuffle v w indices) := by
  apply Packed.expect_bind_failsOnly
  rintro rfl
  apply Packed.expect_bind_failsOnly
  intro hws
  obtain ⟨hfails, hlt⟩ := v.shape.laneIndices_failsOnly (2 * v.shape.laneCount) indices
  refine failsOnly_bind hfails fun picks hpicks => ?_
  apply Packed.build_failsOnly_of_lanes
  intro i _
  have hpick := hlt picks hpicks (Nat.mul_pos (by decide) v.shape.laneCount_pos) i
  dsimp only
  split_ifs with hfirst
  · exact ⟨v, _, hv, rfl, Packed.laneAt_eq_ok hfirst⟩
  · exact ⟨w, _, hw, hws, Packed.laneAt_eq_ok (by rw [hws]; omega)⟩

/-! ## Conversions -/

theorem accepts_numberLane {check : Int → Int → Except ConversionFault Int} {x : Single} {l : Lane}
    (h : s.numberLane check x = .ok l) : s.accepts l = true := by
  unfold numberLane at h
  split at h
  · rename_i hrange
    obtain ⟨n, -, rfl⟩ := map_eq_ok.1 h
    exact isInteger_of_range hrange
  · obtain rfl := Except.ok.inj h
    exact accepts_cast s _

theorem accepts_convertLane {cast : FloatCast} {l l' : Lane} (h : s.convertLane cast source l = .ok l') :
    s.accepts l' = true := by
  cases l with
  | float x => exact accepts_numberLane (mapError_eq_ok.1 h)
  | int n => exact accepts_numberLane (mapError_eq_ok.1 h)
  | bool b => cases h

theorem forScripts_failsOnly (r : Except ConversionFault Lane) :
    FailsOnly Fault.OfOperands (r.mapError ConversionFault.forScripts) := by
  cases r with
  | error fault => exact failsOnly_refuse rfl
  | ok l => exact failsOnly_ok l

/-- a lane that is no truth value fails to convert for its value only -/
theorem convertLane_failsOnly (cast : FloatCast) (s : Shape) {l : Lane} (hsource : source.isBool = false)
    (hl : source.accepts l = true) : FailsOnly Fault.OfOperands (s.convertLane cast source l) := by
  cases l with
  | float x => exact forScripts_failsOnly _
  | int n => exact forScripts_failsOnly _
  | bool b => exact absurd (hsource.symm.trans hl) Bool.false_ne_true

theorem convert_failsOnly (cast : FloatCast) (s : Shape) (hsource : source.isBool = false) (hv : v.WellFormed) :
    FailsOnly Fault.OfOperands (s.convert cast source v) := by
  unfold convert
  split_ifs with hconv
  · apply Packed.expect_bind_failsOnly
    rintro rfl
    have hcount : v.shape.laneCount = s.laneCount := by
      simp only [convertsFrom, Bool.and_eq_true, beq_iff_eq] at hconv
      exact hconv.1.1.2
    apply build_failsOnly
    · intro i hi
      rw [Packed.laneAt_eq_ok (hcount ▸ hi)]
      exact convertLane_failsOnly cast s hsource (hv.accepts i)
    · intro i _ l hl
      obtain ⟨source, -, hl⟩ := bind_eq_ok.1 hl
      exact accepts_convertLane hl
  · exact failsOnly_refuse rfl

theorem reinterpret_failsOnly (hs : s.isBool = false) (hsource : source.isBool = false) (hv : v.WellFormed) :
    FailsOnly Fault.OfOperands (s.reinterpret source v) := by
  by_cases hne : source = s
  · rw [reinterpret, hs, hsource, Bool.or_self, if_neg Bool.false_ne_true, if_pos hne]
    exact failsOnly_refuse rfl
  by_cases hvs : v.shape = source
  · obtain ⟨u, hu, -⟩ := reinterpret_exists hs hsource hne hv hvs
    rw [hu]
    exact failsOnly_ok u
  · rw [reinterpret, hs, hsource, Bool.or_self, if_neg Bool.false_ne_true, if_neg hne]
    apply Packed.expect_bind_failsOnly
    intro h
    exact absurd h hvs

end Shape

end Vector128
