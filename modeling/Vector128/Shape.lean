/-
The ten vector shapes. A vector has 128 bits, cut into 4, 8 or 16 lanes of one kind: signed or unsigned integers of the
lane's width, 32-bit floats, or booleans. `Shape.all` is the registry order, which every listing follows.
-/
import Vector128.Powers

namespace Vector128

inductive LaneKind
  | signed
  | unsigned
  | float
  | bool
  deriving DecidableEq, Repr

namespace LaneKind

def isInteger : LaneKind → Bool
  | signed | unsigned => true
  | float | bool => false

def name : LaneKind → String
  | signed => "signed integer"
  | unsigned => "unsigned integer"
  | float => "float"
  | bool => "boolean"

end LaneKind

inductive LaneWidth
  | w8
  | w16
  | w32
  deriving DecidableEq, Repr

namespace LaneWidth

def bits : LaneWidth → Nat
  | w8 => 8
  | w16 => 16
  | w32 => 32

/-- the low bits of an integer, read with a sign: the form in which a lane of any signedness is stored -/
def wrap (w : LaneWidth) (n : Int) : Int := n.bmod (twoPow w.bits)

/-- the low bits of an integer, read without a sign -/
def zeroExtend (w : LaneWidth) (n : Int) : Nat := (n % twoPow w.bits).toNat

end LaneWidth

/-! ## Shapes -/

inductive Shape
  | float32x4
  | int32x4
  | int16x8
  | int8x16
  | uint32x4
  | uint16x8
  | uint8x16
  | bool32x4
  | bool16x8
  | bool8x16
  deriving DecidableEq, Repr

namespace Shape

/-- every shape, in registry order -/
def all : List Shape :=
  [float32x4, int32x4, int16x8, int8x16, uint32x4, uint16x8, uint8x16, bool32x4, bool16x8, bool8x16]

def name : Shape → String
  | float32x4 => "Float32x4"
  | int32x4 => "Int32x4"
  | int16x8 => "Int16x8"
  | int8x16 => "Int8x16"
  | uint32x4 => "Uint32x4"
  | uint16x8 => "Uint16x8"
  | uint8x16 => "Uint8x16"
  | bool32x4 => "Bool32x4"
  | bool16x8 => "Bool16x8"
  | bool8x16 => "Bool8x16"

def ofName? (name : String) : Option Shape := all.find? (·.name == name)

def kind : Shape → LaneKind
  | float32x4 => .float
  | int32x4 | int16x8 | int8x16 => .signed
  | uint32x4 | uint16x8 | uint8x16 => .unsigned
  | bool32x4 | bool16x8 | bool8x16 => .bool

def width : Shape → LaneWidth
  | float32x4 | int32x4 | uint32x4 | bool32x4 => .w32
  | int16x8 | uint16x8 | bool16x8 => .w16
  | int8x16 | uint8x16 | bool8x16 => .w8

def bytesPerLane (s : Shape) : Nat := s.width.bits / 8

def laneCount (s : Shape) : Nat := 128 / s.width.bits

def byteSize (s : Shape) : Nat := s.laneCount * s.bytesPerLane

def bitWidth (s : Shape) : Nat := s.byteSize * 8

def isBool (s : Shape) : Bool := s.kind == .bool

def isFloat (s : Shape) : Bool := s.kind == .float

def isInteger (s : Shape) : Bool := s.kind.isInteger

def isUnsigned (s : Shape) : Bool := s.kind == .unsigned

/-- the least and the greatest value of an integer lane -/
def range? (s : Shape) : Option (Int × Int) :=
  match s.kind with
  | .signed => some (-(twoPow (s.width.bits - 1) : Int), twoPow (s.width.bits - 1) - 1)
  | .unsigned => some (0, twoPow s.width.bits - 1)
  | .float | .bool => none

/-- the boolean shape with as many lanes: what a comparison gives and a blend selects by -/
def boolShape (s : Shape) : Shape :=
  match s.width with
  | .w32 => bool32x4
  | .w16 => bool16x8
  | .w8 => bool8x16

end Shape

end Vector128
