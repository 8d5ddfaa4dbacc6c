/-
Vectors in and out of typed arrays.

`Shape.load` and `Shape.store` are what scripts call: they take a typed array and an element index, which has to be an
exact index, and refuse to reach past the end of the array. A number of lanes whose bytes cannot be counted is a misuse,
once the array and the index have been found good.
-/
import Vector128.Packed.Convert
import Vector128.Value

namespace Vector128

namespace Shape

/-- The typed array and the byte offset that an access of `count` lanes goes to. Offsets are computed as Numbers. -/
def locate (s : Shape) (st : Store) (target index : Value) (count : Nat) : Outcome (View × Nat) :=
  match target with
  | .array view => do
    if view.isDetached st then refuse .detached
    let n ← index.toNumber
    match Number.index? n with
    | none => refuse .elementIndex
    | some i =>
      if countLimit < s.bytesPerLane * count then .error .misuse
      else
        let offset : Double := (Binary.ofNat i).mul (Binary.ofNat view.kind.size)
        let last := offset.add (Binary.ofNat (s.bytesPerLane * count))
        if (Binary.ofNat (view.byteLength st)).less last then refuse .elementRange
        else return (view, (Number.integerPart offset).toNat)
  | _ => refuse .arrayExpected

/-- no access of no lanes, and none to boolean lanes -/
def transfers (s : Shape) (count : Nat) : Outcome Unit :=
  if count = 0 then .error .misuse else if s.isBool then refuse .unsupported else .ok ()

/-- the vector whose first `count` lanes are in the elements at an index -/
def load (s : Shape) (st : Store) (target index : Value) (count : Nat) : Outcome Packed := do
  s.transfers count
  let (view, offset) ← s.locate st target index count
  (view.region.loadVector st offset s count).mapError Fault.forScripts

/-- what a store writes and where, once its arguments have been checked -/
def storePlan (s : Shape) (st : Store) (target index x : Value) (count : Nat) : Outcome (Packed × View × Nat) := do
  s.transfers count
  match target with
  | .array _ =>
    let v ← x.expect s
    let place ← s.locate st target index count
    return (v, place)
  | _ => refuse .arrayExpected

/-- writes the first `count` lanes of a vector into the elements at an index, and gives the vector back -/
def store (s : Shape) (st : Store) (target index x : Value) (count : Nat) : Outcome Packed × Store :=
  match s.storePlan st target index x count with
  | .error fault => (.error fault, st)
  | .ok (v, view, offset) =>
    let (done, st) := view.region.storeVector st offset v count
    ((done.mapError Fault.forScripts).map fun () => v, st)

end Shape

end Vector128
