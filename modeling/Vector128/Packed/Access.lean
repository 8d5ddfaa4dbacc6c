/-
Construction, access to single lanes, and permutations.

A lane index is a Number that is its own length and names a lane after conversion to a 32-bit integer.
Permutations check every index before they move a lane, and an index that is missing is zero.
-/
import Vector128.Value

namespace Vector128

/-- the lane that a value names among `limit` lanes -/
def laneIndex (limit : Nat) (x : Value) : Outcome Nat := do
  let n ← x.toNumber
  let index := Number.toSigned 32 n
  if (Number.index? n).isSome ∧ 0 ≤ index ∧ index < limit then return index.toNat else refuse .laneIndex

namespace Shape

/-- the lanes that indices name, as many as there are lanes at most; those that are missing count as zero -/
def laneIndices (s : Shape) (limit : Nat) (indices : List Value) : Outcome (List Nat) :=
  (indices.take s.laneCount).mapM (laneIndex limit)

/-- a value that has to be a vector of this shape -/
def check (s : Shape) (x : Value) : Outcome Packed := x.expect s

/-- the lane that an argument becomes; where there is none, the lane that zero becomes -/
def argumentLane (s : Shape) (args : List Value) (i : Nat) : Outcome Lane :=
  match args[i]? with
  | some x => x.toLane s
  | none => .ok (s.cast (.int32 0))

def create (s : Shape) (args : List Value) : Outcome Packed := Packed.build s (s.argumentLane args)

def splat (s : Shape) (x : Value) : Outcome Packed := do
  let lane ← x.toLane s
  Packed.build s fun _ => .ok lane

def extractLane (s : Shape) (v : Packed) (index : Value) : Outcome Value := do
  let v ← v.expect s
  let i ← laneIndex s.laneCount index
  return s.laneValue (← v.laneAt i)

def replaceLane (s : Shape) (v : Packed) (index x : Value) : Outcome Packed := do
  let v ← v.expect s
  let i ← laneIndex s.laneCount index
  let lane ← x.toLane s
  Packed.build s fun j => if j = i then .ok lane else v.laneAt j

/-- the lanes of a vector in the order of the indices -/
def swizzle (s : Shape) (v : Packed) (indices : List Value) : Outcome Packed := do
  let v ← v.expect s
  let picks ← s.laneIndices s.laneCount indices
  Packed.build s fun i => v.laneAt (picks.getD i 0)

/-- lanes of two vectors: the indices count on from the first vector into the second -/
def shuffle (s : Shape) (v w : Packed) (indices : List Value) : Outcome Packed := do
  let v ← v.expect s
  let w ← w.expect s
  let picks ← s.laneIndices (2 * s.laneCount) indices
  Packed.build s fun i =>
    let pick := picks.getD i 0
    if pick < s.laneCount then v.laneAt pick else w.laneAt (pick - s.laneCount)

end Shape

end Vector128
