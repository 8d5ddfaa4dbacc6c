/-
Calls answer.

A function that a shape has is called with any arguments whatsoever, and what it gives is a value or an error about
those arguments. Padding leaves enough of them for every position that a function looks at (`le_length_padded`), so no
argument is missing, and the operation behind it is one that the shape has, so it is not refused as unsupported
(`dispatch_failsOnly`). The functions of prototypes fail for one reason only, and a text of a vector always exists: no
Number has more digits than there is room for (`Decimal.length_digits_le`), and no lane fails to be written in the
default locale (`Locale.vectorText_default`).

`calls_answer` puts them together.
-/
import Vector128.Proofs.Decimal.Shortest
import Vector128.Proofs.Memory.Bounded

namespace Vector128

open Outcome

namespace Builtin

variable {s : Shape} {st : Store} {args : List Value} {i : Nat} {P : Fault → Prop}

theorem le_length_padded (b : Builtin) (args : List Value) : b.fixedLength ≤ (b.padded args).length := by
  rw [padded, List.length_append, List.length_replicate]
  omega

theorem argument_failsOnly (h : i < args.length) : FailsOnly P (argument args i) := by
  rw [argument, List.getElem?_eq_getElem h]
  exact failsOnly_ok _

theorem further_failsOnly (h : i ≤ args.length) : FailsOnly P (further args i) := by
  rw [further, if_pos h]
  exact failsOnly_ok _

theorem operand_failsOnly (h : i < args.length) : FailsOnly Fault.OfOperands (operand s args i) :=
  failsOnly_bind (argument_failsOnly h) fun x _ => x.expect_failsOnly s

theorem selector_failsOnly (x : Value) : FailsOnly Fault.OfOperands (selector x) := by
  unfold selector
  split
  · exact failsOnly_ok _
  · exact failsOnly_refuse rfl

/-! ## Calls -/

theorem returns_failsOnly {α : Type} {r : Outcome α} {f : α → Value} (hr : FailsOnly P r) :
    FailsOnly P (do return f (← r)) :=
  failsOnly_bind hr fun _ _ => failsOnly_ok _

/-- as many lanes as the shape has, or fewer -/
theorem lanes_of_isSupported {amount : LaneAmount} (h : (Builtin.load amount).isSupported s = true) :
    s.isBool = false ∧ amount.lanes s ≠ 0 ∧ amount.lanes s ≤ s.laneCount := by
  cases s <;> cases amount <;> first | decide | cases h

/-- **A function that the shape has fails only for its arguments**, if there are as many as it has parameters. -/
theorem dispatch_failsOnly {cast : FloatCast} {b : Builtin} (hb : b.isSupported s = true)
    (hlen : b.fixedLength ≤ args.length) (hargs : ∀ x ∈ args, x.WellFormed) :
    FailsOnly Fault.OfOperands (b.dispatch cast s st args).1 := by
  cases b with
  | splat =>
    refine failsOnly_bind (argument_failsOnly hlen) fun x _ => ?_
    exact returns_failsOnly (s.splat_failsOnly x)
  | check =>
    refine failsOnly_bind (argument_failsOnly hlen) fun x _ => ?_
    exact returns_failsOnly (x.expect_failsOnly s)
  | unary op =>
    refine failsOnly_bind (operand_failsOnly hlen) fun v hv => ?_
    exact returns_failsOnly (Shape.unary_failsOnly hb (operand_wellFormed hargs hv))
  | binary op =>
    have h2 : 2 ≤ args.length := hlen
    refine failsOnly_bind (operand_failsOnly (by omega)) fun v hv => ?_
    refine failsOnly_bind (operand_failsOnly (by omega)) fun w hw => ?_
    exact returns_failsOnly
      (Shape.binary_failsOnly hb (operand_wellFormed hargs hv) (operand_wellFormed hargs hw))
  | compare op =>
    have h2 : 2 ≤ args.length := hlen
    have hs : s.isBool = false := by simpa [isSupported] using hb
    refine failsOnly_bind (operand_failsOnly (by omega)) fun v hv => ?_
    refine failsOnly_bind (operand_failsOnly (by omega)) fun w hw => ?_
    exact returns_failsOnly
      (Shape.compare_failsOnly hs op (operand_wellFormed hargs hv) (operand_wellFormed hargs hw))
  | anyTrue | allTrue =>
    refine failsOnly_bind (operand_failsOnly hlen) fun v hv => ?_
    exact returns_failsOnly (failsOnly_map (Shape.truths_failsOnly hb (operand_wellFormed hargs hv)))
  | select =>
    have h3 : 3 ≤ args.length := hlen
    refine failsOnly_bind (argument_failsOnly (by omega)) fun x _ => ?_
    refine failsOnly_bind (selector_failsOnly x) fun picks _ => ?_
    refine failsOnly_bind (operand_failsOnly (by omega)) fun v hv => ?_
    refine failsOnly_bind (operand_failsOnly (by omega)) fun w hw => ?_
    exact returns_failsOnly
      (Shape.select_failsOnly (operand_wellFormed hargs hv) (operand_wellFormed hargs hw) picks)
  | shiftLeft =>
    have h2 : 2 ≤ args.length := hlen
    refine failsOnly_bind (operand_failsOnly (by omega)) fun v hv => ?_
    refine failsOnly_bind (argument_failsOnly (by omega)) fun x _ => ?_
    exact returns_failsOnly (Shape.shiftLeft_failsOnly hb (operand_wellFormed hargs hv) x)
  | shiftRight =>
    have h2 : 2 ≤ args.length := hlen
    refine failsOnly_bind (operand_failsOnly (by omega)) fun v hv => ?_
    refine failsOnly_bind (argument_failsOnly (by omega)) fun x _ => ?_
    exact returns_failsOnly (Shape.shiftRight_failsOnly hb (operand_wellFormed hargs hv) x)
  | extractLane =>
    have h2 : 2 ≤ args.length := hlen
    refine failsOnly_bind (operand_failsOnly (by omega)) fun v _ => ?_
    refine failsOnly_bind (argument_failsOnly (by omega)) fun x _ => ?_
    exact s.extractLane_failsOnly v x
  | replaceLane =>
    have h3 : 3 ≤ args.length := hlen
    refine failsOnly_bind (operand_failsOnly (by omega)) fun v hv => ?_
    refine failsOnly_bind (argument_failsOnly (by omega)) fun index _ => ?_
    refine failsOnly_bind (argument_failsOnly (by omega)) fun x _ => ?_
    exact returns_failsOnly (Shape.replaceLane_failsOnly (operand_wellFormed hargs hv) index x)
  | load amount =>
    have h2 : 2 ≤ args.length := hlen
    obtain ⟨hs, hpos, hcount⟩ := lanes_of_isSupported hb
    refine failsOnly_bind (argument_failsOnly (by omega)) fun target _ => ?_
    refine failsOnly_bind (argument_failsOnly (by omega)) fun index _ => ?_
    exact returns_failsOnly (Shape.load_failsOnly hs hpos hcount st target index)
  | store amount =>
    obtain ⟨hs, hpos, hcount⟩ := lanes_of_isSupported (show (load amount).isSupported s = true from hb)
    match args, hlen with
    | target :: index :: x :: _, _ =>
      exact failsOnly_map (Shape.store_failsOnly hs hpos hcount st target index x)
  | swizzle =>
    have h1 : 1 ≤ args.length := hlen
    refine failsOnly_bind (operand_failsOnly (by omega)) fun v hv => ?_
    refine failsOnly_bind (further_failsOnly h1) fun indices _ => ?_
    exact returns_failsOnly (Shape.swizzle_failsOnly (operand_wellFormed hargs hv) indices)
  | shuffle =>
    have h2 : 2 ≤ args.length := hlen
    refine failsOnly_bind (operand_failsOnly (by omega)) fun v hv => ?_
    refine failsOnly_bind (operand_failsOnly (by omega)) fun w hw => ?_
    refine failsOnly_bind (further_failsOnly h2) fun indices _ => ?_
    exact returns_failsOnly
      (Shape.shuffle_failsOnly (operand_wellFormed hargs hv) (operand_wellFormed hargs hw) indices)
  | convert source =>
    obtain ⟨-, hsource⟩ : s.isBool = false ∧ source.isBool = false := by simpa [isSupported] using hb
    refine failsOnly_bind (operand_failsOnly hlen) fun v hv => ?_
    exact returns_failsOnly (Shape.convert_failsOnly cast s hsource (operand_wellFormed hargs hv))
  | reinterpret source =>
    have hs : s.isBool = false ∧ source.isBool = false := by simpa [isSupported] using hb
    refine failsOnly_bind (operand_failsOnly hlen) fun v hv => ?_
    exact returns_failsOnly (Shape.reinterpret_failsOnly hs.1 hs.2 (operand_wellFormed hargs hv))

theorem isSupported_of_find? {name : String} {b : Builtin} (h : find? s name = some b) : b.isSupported s = true := by
  simp only [find?, Option.filter_eq_some_iff] at h
  exact h.2

end Builtin

/-! ## Texts -/

theorem Locale.laneText_default (s : Shape) (l : Lane) : ∃ text, default.laneText s l = some text := by
  cases l <;> exact ⟨_, rfl⟩

theorem Locale.vectorText_default (v : Packed) : ∃ text, default.vectorText v = some text := by
  have hlanes : ∀ lanes : List Lane, ∃ texts, lanes.mapM (default.laneText v.shape) = some texts := by
    intro lanes
    induction lanes with
    | nil => exact ⟨[], rfl⟩
    | cons l rest ih =>
      obtain ⟨text, htext⟩ := laneText_default v.shape l
      obtain ⟨texts, htexts⟩ := ih
      exact ⟨text :: texts, by rw [List.mapM_cons, htext, htexts]; rfl⟩
  obtain ⟨texts, htexts⟩ := hlanes v.lanes
  exact ⟨_, by rw [vectorText, htexts]; rfl⟩

/-- a prototype function needs a vector of its shape, and nothing else -/
theorem Prototype.call_cases (p : Prototype) (s : Shape) (this : Value) :
    (∃ v, this = .vector v ∧ v.shape = s ∧ ∃ y, p.call s this = .ok y) ∨
      (¬ ∃ v, this = .vector v ∧ v.shape = s) ∧ p.call s this = refuse .vectorExpected := by
  by_cases h : ∃ v, this = .vector v ∧ v.shape = s
  · obtain ⟨v, rfl, hs⟩ := h
    have hexpect : (Value.vector v).expect s = .ok v := Value.expect_eq_ok.2 ⟨rfl, hs⟩
    refine Or.inl ⟨v, rfl, hs, ?_⟩
    rw [call, hexpect]
    cases p <;> exact ⟨_, rfl⟩
  · refine Or.inr ⟨h, ?_⟩
    have hexpect : this.expect s = refuse .vectorExpected := by
      cases this with
      | vector v =>
        rw [Value.expect, Packed.expect, if_neg]
        exact fun hs => h ⟨v, rfl, hs⟩
      | _ => rfl
    rw [call, hexpect]
    rfl

/-! ## Calls of scripts -/

/-- every shape has 128 bits and one of the three lane counts that boolean shapes have -/
theorem Shape.boolShape_total (s : Shape) :
    s.bitWidth = 128 ∧ (s.laneCount = 4 ∨ s.laneCount = 8 ∨ s.laneCount = 16) ∧ s.boolShape.isBool = true ∧
      s.boolShape.laneCount = s.laneCount := by
  cases s <;> decide

/-- the range of integer lanes is one that can be clamped to -/
theorem Shape.saturate_range {s : Shape} {low high : Int} (h : s.range? = some (low, high)) (n : Int) :
    saturate n low high = .ok (s.clampLane n) := by
  have hpos : ∀ k, 0 < twoPow k := fun k => Nat.two_pow_pos k
  have hle : low ≤ high := by
    unfold range? at h
    split at h
    · obtain ⟨rfl, rfl⟩ := Prod.mk.inj (Option.some.inj h)
      have := hpos (s.width.bits - 1)
      omega
    · obtain ⟨rfl, rfl⟩ := Prod.mk.inj (Option.some.inj h)
      have := hpos s.width.bits
      omega
    · cases h
    · cases h
  rw [saturate, if_neg (not_lt.2 hle), clampLane, h]

/-- **Calls answer.** Every shape has a boolean one and a range that can be clamped to, if it has a range at all.
Whatever function is found by its name, with whatever arguments it is called: if it fails, it fails with an error that a
script sees, and this is not that the shape lacks the function. A function of the prototype fails exactly on what is no
vector of the shape, and writing a vector never fails: every Number fits into 32 digits, and in the default locale every
lane has a text. -/
theorem calls_answer (cast : FloatCast) (s : Shape) :
    (s.bitWidth = 128 ∧ (s.laneCount = 4 ∨ s.laneCount = 8 ∨ s.laneCount = 16) ∧ s.boolShape.isBool = true ∧
      s.boolShape.laneCount = s.laneCount) ∧
    (∀ low high, s.range? = some (low, high) → ∀ n, saturate n low high = .ok (s.clampLane n)) ∧
    (∀ name b, Builtin.find? s name = some b → ∀ (st : Store) (args : List Value), (∀ x ∈ args, x.WellFormed) →
      ∀ fault, (b.call cast s st args).1 = .error fault →
        ∃ c, fault = .script c ∧ c ≠ .unsupported ∧ c.message ≠ Cause.unsupported.message) ∧
    (∀ (p : Prototype) (this : Value), ((∃ y, p.call s this = .ok y) ↔ ∃ v, this = .vector v ∧ v.shape = s) ∧
      ∀ fault, p.call s this = .error fault → fault = .script .vectorExpected) ∧
    (∀ v : Packed, v.shape = s →
      ∃ text, Locale.default.vectorText v = some text ∧
        Prototype.toLocaleString.call s (.vector v) = .ok (.string text)) ∧
    ∀ x : Double, x.isFinite = true → x.isZero = false →
      (Decimal.shortest .double x.code.toNat).digits.length ≤ 32 := by
  refine ⟨s.boolShape_total, fun low high h n => Shape.saturate_range h n, ?_, ?_, ?_, ?_⟩
  · intro name b hb st args hargs fault hfault
    have hfails : FailsOnly Fault.OfOperands (b.call cast s st args).1 :=
      Builtin.dispatch_failsOnly (Builtin.isSupported_of_find? hb) (b.le_length_padded args)
        (Builtin.padded_wellFormed b hargs)
    obtain ⟨c, rfl, hc⟩ := hfails fault hfault
    refine ⟨c, rfl, ?_, Cause.message_ne_unsupported hc⟩
    rintro rfl
    cases hc
  · intro p this
    rcases p.call_cases s this with ⟨v, hv, hs, y, hy⟩ | ⟨hno, hrefuse⟩
    · refine ⟨⟨fun _ => ⟨v, hv, hs⟩, fun _ => ⟨y, hy⟩⟩, ?_⟩
      intro fault hfault
      rw [hy] at hfault
      cases hfault
    · refine ⟨⟨?_, fun h => absurd h hno⟩, ?_⟩
      · rintro ⟨y, hy⟩
        exact absurd (hrefuse.symm.trans hy) refuse_ne_ok
      · intro fault hfault
        exact (Except.error.inj (hrefuse.symm.trans hfault)).symm
  · intro v hs
    obtain ⟨text, htext⟩ := Locale.vectorText_default v
    refine ⟨text, htext, ?_⟩
    rw [Prototype.call, Value.expect_eq_ok.2 ⟨rfl, hs⟩]
    show (.ok (.string v.localeText) : Outcome Value) = _
    rw [Packed.localeText, htext]
    rfl
  · intro x hfinite hzero
    have hpos : 0 < x.code.toNat := Nat.pos_of_ne_zero (of_decide_eq_false hzero)
    have hlength := Decimal.length_digits_le hpos (of_decide_eq_true hfinite)
    omega

/-- A store of three lanes into an array whose buffer is detached, its index missing, and the prototype functions on the
vector that was to be stored and on one of another shape. -/
theorem calls_answer_detached :
    let st : Store := ⟨[(Buffer.ofBytes (List.replicate 16 0)).detach], 0⟩
    let v : Packed := Packed.zero .int32x4
    let args : List Value := [.array ⟨0, .uint8, 0, 16⟩, .undefined, .vector v]
    Builtin.find? .int32x4 "store3" = some (.store .three) ∧ (∀ x ∈ args, x.WellFormed) ∧
      (Builtin.call .truncating (.store .three) .int32x4 st args).1 = .error (.script .detached) ∧
      (∃ c, Fault.script .detached = .script c ∧ c ≠ .unsupported ∧ c.message ≠ Cause.unsupported.message) ∧
      (∃ y, Prototype.toString.call .int32x4 (.vector v) = .ok y) ∧
      ¬ ∃ y, Prototype.toString.call .int32x4 (.vector (Packed.zero .uint32x4)) = .ok y := by
  intro st v args
  have hfind : Builtin.find? .int32x4 "store3" = some (.store .three) := by decide +kernel
  have hargs : ∀ x ∈ args, x.WellFormed := by decide
  have hcall : (Builtin.call .truncating (.store .three) .int32x4 st args).1 = .error (.script .detached) := by
    decide +kernel
  obtain ⟨-, -, hcalls, hprototype, -⟩ := calls_answer .truncating .int32x4
  refine ⟨hfind, hargs, hcall, hcalls "store3" _ hfind st args hargs _ hcall, ?_, ?_⟩
  · exact (hprototype .toString (.vector v)).1.2 ⟨v, rfl, rfl⟩
  · intro h
    obtain ⟨w, hw, hs⟩ := (hprototype .toString _).1.1 h
    obtain rfl := Value.vector.inj hw
    cases hs

end Vector128
