/-
Vectors in and out of bytes.

Lanes lie back to back in little-endian order and move one after another. `Region.loadVector` and
`Region.storeVector` first check that all lanes asked for fit, so that a refused store has written nothing;
more lanes than a vector has are a misuse. A boolean lane is a mask of ones or zeros, and true if any bit is
set.
-/
import Vector128.Memory.Region
import Vector128.Packed.Basic

namespace Vector128

namespace Shape

/-- The bytes of a lane. Integers are sign-extended, so the low bytes of 32 bits hold the lane. -/
def encodeLane (s : Shape) : Lane → List UInt8
  | .float x => Bytes.ofNat Format.single.byteCount x.toBits
  | .int n => (Bytes.ofInt 4 n).take s.bytesPerLane
  | .bool b => (Bytes.ofInt 4 (-b.toInt)).take s.bytesPerLane

/-- the lane that bytes denote -/
def decodeLane (s : Shape) (bytes : List UInt8) : Lane :=
  match s.kind with
  | .float => .float (Binary.ofBits (Bytes.toNat bytes))
  | .bool => .bool (Bytes.toInt bytes != 0)
  | .signed | .unsigned => .int (Bytes.toInt bytes)

end Shape

namespace Region

variable {σ : Type}

/-- whether `count` lanes fit behind `offset` -/
def fits (p : Region σ) (st : σ) (s : Shape) (offset count : Nat) : Outcome Unit :=
  if s.laneCount < count then .error .misuse
  else if within offset (s.bytesPerLane * count) (p.byteLength st) then .ok ()
  else .error .outOfBounds

/-- lane `i` of a vector whose first `count` lanes lie at `offset`; the others are those that zero becomes -/
def loadLane (p : Region σ) (st : σ) (offset : Nat) (s : Shape) (count i : Nat) : Outcome Lane :=
  if i < count then (p.read st (offset + i * s.bytesPerLane) s.bytesPerLane).map s.decodeLane
  else .ok (s.cast (.int32 0))

/-- the vector whose first `count` lanes lie at `offset` -/
def loadVector (p : Region σ) (st : σ) (offset : Nat) (s : Shape) (count : Nat) : Outcome Packed := do
  p.fits st s offset count
  Packed.build s (p.loadLane st offset s count)

/-- writes lanes back to back from `offset` on, until one is refused -/
def storeLanes (p : Region σ) (s : Shape) : σ → Nat → List Lane → Outcome Unit × σ
  | st, _, [] => (.ok (), st)
  | st, offset, lane :: rest =>
    match p.write st offset (s.encodeLane lane) with
    | (.ok (), st) => p.storeLanes s st (offset + s.bytesPerLane) rest
    | (.error fault, st) => (.error fault, st)

/-- writes the first `count` lanes of a vector at `offset` -/
def storeVector (p : Region σ) (st : σ) (offset : Nat) (v : Packed) (count : Nat) : Outcome Unit × σ :=
  match p.fits st v.shape offset count with
  | .ok () => p.storeLanes v.shape st offset (v.lanes.take count)
  | .error fault => (.error fault, st)

end Region

end Vector128
