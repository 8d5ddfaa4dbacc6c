/-
Why an operation is refused.

A `Cause` is an error that a script can see. It has a kind, and a message that depends on nothing but the cause. A
`Fault` is such an error, an access outside of a buffer's bytes, or a misuse: a call whose caller broke a precondition,
for which there is no answer at all.
-/

namespace Vector128

inductive ErrorKind
  /-- an operand of the wrong kind -/
  | typeError
  /-- a value outside of the allowed range -/
  | rangeError
  deriving DecidableEq, Repr

def ErrorKind.name : ErrorKind → String
  | .typeError => "TypeError"
  | .rangeError => "RangeError"

/-- why a lane does not convert to an integer lane -/
inductive ConversionFault
  | notANumber
  | outOfRange
  deriving DecidableEq, Repr

def ConversionFault.message : ConversionFault → String
  | .notANumber => "NaN cannot be converted to an integer lane"
  | .outOfRange => "value is out of range for the lane type"

inductive Cause
  /-- an operand is not a vector of the shape that the operation works on -/
  | vectorExpected
  /-- the shape does not have the operation -/
  | unsupported
  /-- the selector of a blend has the wrong shape -/
  | selectorMismatch
  /-- lanes of the source shape do not convert -/
  | conversionSource
  /-- a vector where a Number is needed -/
  | vectorAsNumber
  /-- a lane index is no lane -/
  | laneIndex
  /-- a lane does not convert -/
  | conversion (fault : ConversionFault)
  /-- an operand is not a typed array -/
  | arrayExpected
  /-- the typed array's buffer is detached -/
  | detached
  /-- an element index is no index at all -/
  | elementIndex
  /-- the elements accessed reach past the end -/
  | elementRange
  /-- the bytes accessed reach past the end -/
  | byteRange
  /-- an error that the host words itself -/
  | host (kind : ErrorKind) (message : String)
  deriving DecidableEq, Repr

namespace Cause

def kind : Cause → ErrorKind
  | laneIndex | conversion _ | elementIndex | elementRange | byteRange => .rangeError
  | host kind _ => kind
  | _ => .typeError

def message : Cause → String
  | vectorExpected => "SIMD type expected"
  | unsupported => "operation is not supported by this SIMD type"
  | selectorMismatch => "selector must be a boolean vector with a matching lane count"
  | conversionSource => "invalid source type for lane conversion"
  | vectorAsNumber => "cannot convert a SIMD value to a number"
  | laneIndex => "lane out of bounds"
  | conversion fault => fault.message
  | arrayExpected => "TypedArray expected"
  | detached => "detached buffer"
  | elementIndex => "invalid index"
  | elementRange => "index out of bounds"
  | byteRange => "out-of-bounds byte offset"
  | host _ message => message

def text (c : Cause) : String := c.kind.name ++ ": " ++ c.message

end Cause

/-! ## Faults -/

inductive Fault
  | script (cause : Cause)
  /-- bytes outside of a buffer or a view -/
  | outOfBounds
  /-- a precondition of the call does not hold -/
  | misuse
  deriving DecidableEq, Repr

/-- what an operation gives: a value, or the reason why there is none -/
abbrev Outcome (α : Type) := Except Fault α

instance decidableEqExcept {ε α : Type} [DecidableEq ε] [DecidableEq α] : DecidableEq (Except ε α)
  | .ok a, .ok b => decidable_of_iff (a = b) ⟨congrArg _, Except.ok.inj⟩
  | .error a, .error b => decidable_of_iff (a = b) ⟨congrArg _, Except.error.inj⟩
  | .ok _, .error _ => isFalse nofun
  | .error _, .ok _ => isFalse nofun

def refuse {α : Type} (c : Cause) : Outcome α := .error (.script c)

/-- why a lane does not convert, as scripts see it -/
def ConversionFault.forScripts (fault : ConversionFault) : Fault := .script (.conversion fault)

namespace Outcome

variable {α β : Type}

theorem bind_eq_ok {x : Outcome α} {f : α → Outcome β} {b : β} :
    (x >>= f) = .ok b ↔ ∃ a, x = .ok a ∧ f a = .ok b := by
  cases x with
  | error fault => simp [bind, Except.bind]
  | ok a => simp [bind, Except.bind]

theorem pure_eq_ok {a b : α} : (pure a : Outcome α) = .ok b ↔ a = b := by
  simp [pure, Except.pure]

theorem map_eq_ok {ε : Type} {x : Except ε α} {f : α → β} {b : β} : x.map f = .ok b ↔ ∃ a, x = .ok a ∧ f a = b := by
  cases x with
  | error fault => simp [Except.map]
  | ok a => simp [Except.map]

theorem map_map {γ : Type} (x : Outcome α) (f : α → β) (g : β → γ) : (x.map f).map g = x.map fun a => g (f a) := by
  cases x <;> rfl

theorem mapError_eq_ok {ε : Type} {x : Except ε α} {f : ε → Fault} {a : α} : x.mapError f = .ok a ↔ x = .ok a := by
  cases x with
  | error fault => exact ⟨nofun, nofun⟩
  | ok b => exact ⟨fun h => congrArg _ (Except.ok.inj h), fun h => congrArg _ (Except.ok.inj h)⟩

@[simp] theorem refuse_ne_ok {c : Cause} {a : α} : refuse c ≠ .ok a := nofun

end Outcome

/-- an access outside of the bytes as scripts see it -/
def Fault.forScripts : Fault → Fault
  | outOfBounds => script .byteRange
  | fault => fault

/-- a name that no shape or operation has -/
def notFoundMessage : String := "no such SIMD type or operation"

def invalidViewMessage : String := "invalid typed array length or offset"

end Vector128
