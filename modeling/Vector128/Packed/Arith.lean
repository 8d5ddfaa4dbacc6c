/-
Arithmetic and bitwise operations on vectors of one shape.

An operation is a table: what it computes on integer, on float and on boolean lanes, where it has a meaning there.
Integer operations are exact and their results are cut to the lane width, saturating ones are clamped to the range of
the shape before.
-/
import Vector128.Binary.Extremum
import Vector128.Packed.Basic

namespace Vector128

/-- the integer of `low … high` nearest to `n` -/
def clamp (n low high : Int) : Int := max low (min n high)

/-- clamping to a range that has to be one -/
def saturate (n low high : Int) : Outcome Int := if high < low then .error .misuse else .ok (clamp n low high)

/-- an exact result, clamped to the range of an integer shape -/
def Shape.clampLane (s : Shape) (n : Int) : Int :=
  match s.range? with
  | some (low, high) => clamp n low high
  | none => n

inductive UnaryOp
  | neg
  | sqrt
  | reciprocal
  | reciprocalSqrt
  | abs
  | not
  deriving DecidableEq, Repr

namespace UnaryOp

def onInts : UnaryOp → Option (Int → Int)
  | neg => some fun x => -x
  | not => some fun x => -x - 1
  | _ => none

def onFloats : UnaryOp → Option (Single → Single)
  | neg => some Binary.neg
  | sqrt => some Binary.sqrt
  | reciprocal => some Binary.reciprocal
  | reciprocalSqrt => some Binary.reciprocalSqrt
  | abs => some Binary.abs
  | not => none

def onBools : UnaryOp → Option (Bool → Bool)
  | not => some Bool.not
  | _ => none

end UnaryOp

inductive BinaryOp
  | add
  | sub
  | mul
  | div
  | max
  | min
  | maxNumber
  | minNumber
  | and
  | or
  | xor
  | addSaturate
  | subSaturate
  deriving DecidableEq, Repr

/-- an operation on the 32 bits of two stored lanes -/
def bitwise (f : BitVec 32 → BitVec 32 → BitVec 32) (x y : Int) : Int :=
  (f (BitVec.ofInt 32 x) (BitVec.ofInt 32 y)).toInt

namespace BinaryOp

def onInts (s : Shape) : BinaryOp → Option (Int → Int → Int)
  | add => some fun x y => x + y
  | sub => some fun x y => x - y
  | mul => some fun x y => x * y
  | and => some (bitwise fun x y => x &&& y)
  | or => some (bitwise fun x y => x ||| y)
  | xor => some (bitwise fun x y => x ^^^ y)
  | addSaturate => some fun x y => s.clampLane (s.visible x + s.visible y)
  | subSaturate => some fun x y => s.clampLane (s.visible x - s.visible y)
  | _ => none

def onFloats : BinaryOp → Option (Single → Single → Single)
  | add => some Binary.add
  | sub => some Binary.sub
  | mul => some Binary.mul
  | div => some Binary.div
  | max => some Binary.maximum
  | min => some Binary.minimum
  | maxNumber => some Binary.maximumNumber
  | minNumber => some Binary.minimumNumber
  | _ => none

def onBools : BinaryOp → Option (Bool → Bool → Bool)
  | and => some Bool.and
  | or => some Bool.or
  | xor => some Bool.xor
  | _ => none

end BinaryOp

/-! ## Running an operation -/

/-- the variant that a shape has of an operation, or the refusal where it has none -/
def orUnsupported {α : Type} : Option α → Outcome α
  | some a => .ok a
  | none => refuse .unsupported

namespace Shape

def unary (s : Shape) (op : UnaryOp) (v : Packed) : Outcome Packed := do
  let v ← v.expect s
  match s.kind with
  | .float => v.mapFloats (← orUnsupported op.onFloats)
  | .bool => v.mapBools (← orUnsupported op.onBools)
  | .signed | .unsigned => v.mapInts (← orUnsupported op.onInts)

def binary (s : Shape) (op : BinaryOp) (v w : Packed) : Outcome Packed := do
  let v ← v.expect s
  let w ← w.expect s
  match s.kind with
  | .float => v.zipFloats w (← orUnsupported op.onFloats)
  | .bool => v.zipBools w (← orUnsupported op.onBools)
  | .signed | .unsigned => v.zipInts w (← orUnsupported (op.onInts s))

end Shape

end Vector128
