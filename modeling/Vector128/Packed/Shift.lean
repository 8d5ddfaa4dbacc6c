/-
Shifts of integer lanes by one amount. The amount is taken modulo the lane width. To the right, unsigned lanes fill with
zeros and signed ones with the sign: the result is the visible value divided by a power of two and rounded down.
-/
import Vector128.Value

namespace Vector128.Shape

/-- the amount that a value shifts lanes of this shape by -/
def shiftAmount (s : Shape) (x : Value) : Outcome Nat :=
  x.toNumber.map fun n => Number.toUnsigned 32 n % s.width.bits

def shiftLeft (s : Shape) (v : Packed) (amount : Value) : Outcome Packed := do
  let v ← v.expect s
  let k ← s.shiftAmount amount
  v.mapInts fun x => x * twoPow k

def shiftRight (s : Shape) (v : Packed) (amount : Value) : Outcome Packed := do
  let v ← v.expect s
  let k ← s.shiftAmount amount
  v.mapInts fun x => s.visible x / twoPow k

end Vector128.Shape
