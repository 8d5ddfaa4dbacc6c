/-
Lanes, and casting a scalar into a lane.

An integer lane is stored with the sign of its width, also where the shape is unsigned; `Shape.visible` is the
value that scripts see. A cast never fails. Into integer lanes it keeps the low bits of the integer part, into
float lanes it takes the nearest float, into boolean lanes the truth of the scalar.
-/
import Vector128.Number.Coerce
import Vector128.Shape

namespace Vector128

inductive Lane
  | int (value : Int)
  | float (value : Single)
  | bool (value : Bool)
  deriving DecidableEq, Repr

namespace Lane

def toInt : Lane → Int
  | int n => n
  | float _ | bool _ => 0

def toSingle : Lane → Single
  | float x => x
  | int _ | bool _ => Binary.zero

def toBool : Lane → Bool
  | bool b => b
  | int _ | float _ => false

end Lane

namespace Shape

/-- the value of a stored integer lane, with the sign that the shape gives it -/
def visible (s : Shape) (lane : Int) : Int := if s.isUnsigned then s.width.zeroExtend lane else lane

/-- the lane that is zero or `false` -/
def zeroLane (s : Shape) : Lane :=
  match s.kind with
  | .float => .float Binary.zero
  | .bool => .bool false
  | .signed | .unsigned => .int 0

/-- whether the lane is of the kind that the shape has -/
def accepts (s : Shape) : Lane → Bool
  | .int _ => s.isInteger
  | .float _ => s.isFloat
  | .bool _ => s.isBool

/-- the lane with an integer cut to the shape's width -/
def normalize (s : Shape) : Lane → Lane
  | .int n => .int (s.width.wrap n)
  | lane => lane

end Shape

/-! ## Scalars -/

/-- a primitive value that can be cast into a lane -/
inductive Scalar
  | int32 (value : Int32)
  | uint32 (value : UInt32)
  | int16 (value : Int16)
  | uint16 (value : UInt16)
  | int8 (value : Int8)
  | uint8 (value : UInt8)
  | single (value : Single)
  | double (value : Double)
  | bool (value : Bool)
  deriving DecidableEq

namespace Scalar

def int? : Scalar → Option Int
  | int32 n => some n.toInt
  | uint32 n => some n.toNat
  | int16 n => some n.toInt
  | uint16 n => some n.toNat
  | int8 n => some n.toInt
  | uint8 n => some n.toNat
  | single _ | double _ | bool _ => none

def toDouble (x : Scalar) : Double :=
  match x with
  | single v => v.convert
  | double v => v
  | bool b => Binary.ofNat b.toNat
  | x => Binary.ofInt (x.int?.getD 0)

/-- the nearest 32-bit float, rounded once: a Number has room for every integer scalar -/
def toSingle (x : Scalar) : Single :=
  match x with
  | single v => v
  | double v => v.convert
  | int32 n => Binary.ofInt n.toInt
  | uint32 n => Binary.ofNat n.toNat
  | x => x.toDouble.convert

def toBool (x : Scalar) : Bool :=
  match x with
  | single v => v.truthy
  | double v => v.truthy
  | bool b => b
  | x => !x.toDouble.equal Binary.zero

/-- the integer for a lane of a shape: a scalar as wide as the lane keeps its bits, any other goes through a Number -/
def toStored (s : Shape) (x : Scalar) : Int :=
  match s.width, x with
  | .w32, int32 n => n.toInt
  | .w32, uint32 n => LaneWidth.w32.wrap n.toNat
  | .w16, int16 n => n.toInt
  | .w16, uint16 n => LaneWidth.w16.wrap n.toNat
  | .w8, int8 n => n.toInt
  | .w8, uint8 n => LaneWidth.w8.wrap n.toNat
  | w, x =>
    if s.isUnsigned then w.wrap (Number.toUnsigned w.bits x.toDouble) else Number.toSigned w.bits x.toDouble

end Scalar

/-- the lane that a scalar becomes -/
def Shape.cast (s : Shape) (x : Scalar) : Lane :=
  s.normalize <|
    match s.kind with
    | .float => .float x.toSingle
    | .bool => .bool x.toBool
    | .signed | .unsigned => .int (x.toStored s)

end Vector128
