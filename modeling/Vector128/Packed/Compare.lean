/-
Comparisons, tests of boolean vectors, and blends.

A comparison gives a boolean vector with as many lanes. Integer lanes compare by the value that scripts see, float lanes
numerically: the zeros are equal, and NaN is unequal to everything and in no order with anything.
-/
import Vector128.Packed.Basic

namespace Vector128

inductive Comparison
  | less
  | lessEq
  | greater
  | greaterEq
  | equal
  | notEqual
  deriving DecidableEq, Repr

namespace Comparison

def onInts : Comparison → Int → Int → Bool
  | less, x, y => decide (x < y)
  | lessEq, x, y => decide (x ≤ y)
  | greater, x, y => decide (y < x)
  | greaterEq, x, y => decide (y ≤ x)
  | equal, x, y => decide (x = y)
  | notEqual, x, y => decide (x ≠ y)

def onFloats : Comparison → Single → Single → Bool
  | less, x, y => x.less y
  | lessEq, x, y => x.lessEq y
  | greater, x, y => y.less x
  | greaterEq, x, y => y.lessEq x
  | equal, x, y => x.equal y
  | notEqual, x, y => !x.equal y

end Comparison

namespace Shape

def compare (s : Shape) (op : Comparison) (v w : Packed) : Outcome Packed := do
  let v ← v.expect s
  let w ← w.expect s
  v.zipTests w op.onInts op.onFloats

def truths (s : Shape) (v : Packed) : Outcome (List Bool) := do
  let v ← v.expect s
  match v.slots with
  | .bools a => return a.toList.take s.laneCount
  | _ => refuse .unsupported

def anyTrue (s : Shape) (v : Packed) : Outcome Bool := (s.truths v).map fun lanes => lanes.any id

def allTrue (s : Shape) (v : Packed) : Outcome Bool := (s.truths v).map fun lanes => lanes.all id

/-- the lanes of `v` where the selector is true, and those of `w` elsewhere -/
def select (s : Shape) (selector v w : Packed) : Outcome Packed := do
  let v ← v.expect s
  let w ← w.expect s
  match selector.slots with
  | .bools picks =>
    if selector.shape = s.boolShape then
      Packed.build s fun i => if picks.getD i false then v.laneAt i else w.laneAt i
    else refuse .selectorMismatch
  | _ => refuse .selectorMismatch

end Shape

end Vector128
