/-
Packed vectors: a shape and the slots that its lanes are stored in.

Slots are of one kind and enough for every shape that has lanes of that kind, so integer and boolean vectors may leave
some unused. `Packed.WellFormed` says what every operation keeps: the slots are of the kind of the shape, integer lanes
are sign-extended from the lane width whatever the sign of the shape, and unused slots are zero or `false`.

Vectors are made on two routes. `Packed.build` sets one lane after another of the zero vector, and `Packed.setLane`
checks the kind of a lane and cuts an integer to the lane width. `map…` and `zip…` fill slots of their own, lane by lane
on one kind of slot; integer results are cut to the lane width there, so no operation needs to think of overflow.
-/
import Vector128.Fault
import Vector128.Lane

namespace Vector128

inductive Slots
  | ints (slots : Vector Int 16)
  | floats (slots : Vector Single 4)
  | bools (slots : Vector Bool 16)
  deriving DecidableEq, Repr

namespace Slots

/-- what a slot holds; beyond the slots, zero or `false` -/
def lane (slots : Slots) (index : Nat) : Lane :=
  match slots with
  | ints a => .int (a.getD index 0)
  | floats a => .float (a.getD index Binary.zero)
  | bools a => .bool (a.getD index false)

/-- as many slots as asked for are computed, the others get the same value -/
def fill {α : Type} (count : Nat) (rest : α) (f : Nat → α) : Vector α 16 :=
  Vector.ofFn fun i => if i.val < count then f i.val else rest

end Slots

/-- the slots of the vector with every lane zero or `false` -/
def Shape.zeroSlots (s : Shape) : Slots :=
  match s.kind with
  | .float => .floats (Vector.replicate 4 Binary.zero)
  | .bool => .bools (Vector.replicate 16 false)
  | .signed | .unsigned => .ints (Vector.replicate 16 0)

/-- whether the slots are of the kind of the shape -/
def Shape.holds (s : Shape) : Slots → Bool
  | .ints _ => s.isInteger
  | .floats _ => s.isFloat
  | .bools _ => s.isBool

structure Packed where
  shape : Shape
  slots : Slots
  deriving DecidableEq, Repr

namespace Packed

def lane (v : Packed) (index : Nat) : Lane := v.slots.lane index

def lanes (v : Packed) : List Lane := (List.range v.shape.laneCount).map v.lane

structure WellFormed (v : Packed) : Prop where
  kind : v.shape.holds v.slots = true
  /-- integers have the sign of the lane width -/
  stored : ∀ i < v.shape.laneCount, v.shape.normalize (v.lane i) = v.lane i
  /-- slots that are no lanes are zero or `false` -/
  unused : ∀ i < 16, v.shape.laneCount ≤ i → v.lane i = v.shape.zeroLane

instance (v : Packed) : Decidable v.WellFormed :=
  decidable_of_iff (v.shape.holds v.slots = true ∧
      (∀ i < v.shape.laneCount, v.shape.normalize (v.lane i) = v.lane i) ∧
      ∀ i < 16, v.shape.laneCount ≤ i → v.lane i = v.shape.zeroLane)
    ⟨fun h => ⟨h.1, h.2.1, h.2.2⟩, fun h => ⟨h.1, h.2, h.3⟩⟩

/-! ## Construction -/

def zero (s : Shape) : Packed := ⟨s, s.zeroSlots⟩

/-- The vector with one lane set, an integer cut to the lane width. An index that is no lane and a lane of another kind
are misuses. -/
def setLane (v : Packed) (index : Nat) (lane : Lane) : Outcome Packed :=
  if index < v.shape.laneCount then
    match v.slots, lane with
    | .ints a, .int n => .ok ⟨v.shape, .ints (a.setIfInBounds index (v.shape.width.wrap n))⟩
    | .floats a, .float x => .ok ⟨v.shape, .floats (a.setIfInBounds index x)⟩
    | .bools a, .bool b => .ok ⟨v.shape, .bools (a.setIfInBounds index b)⟩
    | _, _ => .error .misuse
  else .error .misuse

/-- the vector with a lane for each index, in order; the first fault met is the answer -/
def build (s : Shape) (lane : Nat → Outcome Lane) : Outcome Packed :=
  (List.range s.laneCount).foldlM (fun v i => do v.setLane i (← lane i)) (zero s)

/-- the lane at an index, which it is a misuse to exceed -/
def laneAt (v : Packed) (index : Nat) : Outcome Lane :=
  if index < v.shape.laneCount then .ok (v.lane index) else .error .misuse

section LaneByLane

variable (v w : Packed)

def mapInts (f : Int → Int) : Outcome Packed :=
  match v.slots with
  | .ints a => .ok ⟨v.shape, .ints (Slots.fill v.shape.laneCount 0 fun i => v.shape.width.wrap (f (a.getD i 0)))⟩
  | _ => refuse .unsupported

def mapFloats (f : Single → Single) : Outcome Packed :=
  match v.slots with
  | .floats a => .ok ⟨v.shape, .floats (a.map f)⟩
  | _ => refuse .unsupported

def mapBools (f : Bool → Bool) : Outcome Packed :=
  match v.slots with
  | .bools a => .ok ⟨v.shape, .bools (Slots.fill v.shape.laneCount false fun i => f (a.getD i false))⟩
  | _ => refuse .unsupported

def zipInts (f : Int → Int → Int) : Outcome Packed :=
  match v.slots, w.slots with
  | .ints a, .ints b =>
    .ok ⟨v.shape, .ints (Slots.fill v.shape.laneCount 0 fun i => v.shape.width.wrap (f (a.getD i 0) (b.getD i 0)))⟩
  | _, _ => refuse .unsupported

def zipFloats (f : Single → Single → Single) : Outcome Packed :=
  match v.slots, w.slots with
  | .floats a, .floats b => .ok ⟨v.shape, .floats (Vector.zipWith f a b)⟩
  | _, _ => refuse .unsupported

def zipBools (f : Bool → Bool → Bool) : Outcome Packed :=
  match v.slots, w.slots with
  | .bools a, .bools b =>
    .ok ⟨v.shape, .bools (Slots.fill v.shape.laneCount false fun i => f (a.getD i false) (b.getD i false))⟩
  | _, _ => refuse .unsupported

/-- a lane-wise test of visible values, as a boolean vector -/
def zipTests (onInts : Int → Int → Bool) (onFloats : Single → Single → Bool) : Outcome Packed :=
  match v.slots, w.slots with
  | .ints a, .ints b =>
    .ok ⟨v.shape.boolShape, .bools (Slots.fill v.shape.laneCount false fun i =>
      onInts (v.shape.visible (a.getD i 0)) (v.shape.visible (b.getD i 0)))⟩
  | .floats a, .floats b =>
    .ok ⟨v.shape.boolShape, .bools (Slots.fill v.shape.laneCount false fun i =>
      onFloats (a.getD i Binary.zero) (b.getD i Binary.zero))⟩
  | _, _ => refuse .unsupported

end LaneByLane

/-- an operand has to be of the very shape that the operation works on -/
def expect (v : Packed) (s : Shape) : Outcome Packed := if v.shape = s then .ok v else refuse .vectorExpected

end Packed

end Vector128
