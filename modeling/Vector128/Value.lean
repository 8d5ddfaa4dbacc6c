/-
The values of scripts, their conversions, and SameValueZero.

Conversions to Number and to boolean look at the value alone. Text and equality of a typed array depend on the store,
since its buffer may have been detached.
-/
import Vector128.Memory.View
import Vector128.Number.Reading
import Vector128.Number.Text
import Vector128.Packed.Basic

namespace Vector128

inductive Value
  | undefined
  | null
  | boolean (b : Bool)
  | number (x : Double)
  | string (text : String)
  | vector (v : Packed)
  | array (view : View)
  /-- an object without properties, known by its number -/
  | object (id : Nat)
  deriving DecidableEq, Repr

namespace Value

def toNumber : Value → Outcome Double
  | undefined | array _ | object _ => .ok Binary.nan
  | null => .ok Binary.zero
  | boolean b => .ok (Binary.ofNat b.toNat)
  | number x => .ok x
  | string text => .ok (Number.ofText text.toList)
  | vector _ => refuse .vectorAsNumber

def toBoolean : Value → Bool
  | undefined | null => false
  | boolean b => b
  | number x => x.truthy
  | string text => text != ""
  | vector _ | array _ | object _ => true

def asVector? : Value → Option Packed
  | vector v => some v
  | _ => none

def asNumber? : Value → Option Double
  | number x => some x
  | _ => none

def asBoolean? : Value → Option Bool
  | boolean b => some b
  | _ => none

def expect (x : Value) (s : Shape) : Outcome Packed :=
  match x with
  | vector v => v.expect s
  | _ => refuse .vectorExpected

/-- the lane that a value becomes -/
def toLane (s : Shape) (x : Value) : Outcome Lane :=
  if s.isBool then .ok (.bool x.toBoolean)
  else x.toNumber.map fun n => s.cast (.double n)

end Value

/-- the value of a lane as scripts see it -/
def Shape.laneValue (s : Shape) : Lane → Value
  | .int n => .number (Binary.ofInt (s.visible n))
  | .float x => .number x.convert
  | .bool b => .boolean b

def Packed.values (v : Packed) : List Value := v.lanes.map v.shape.laneValue

/-! ## SameValueZero -/

def Value.sameLane : Value → Value → Bool
  | boolean a, boolean b => a == b
  | number x, number y => x.sameValue y
  | _, _ => false

/-- whether two vectors have as many lanes, with the same values in pairs -/
def Packed.sameValueZero (v w : Packed) : Bool :=
  v.shape.laneCount == w.shape.laneCount && (v.values.zip w.values).all fun (x, y) => x.sameLane y

/-- whether two views show the same elements of the same buffer -/
def View.same (s : Store) (v w : View) : Bool :=
  v.buffer == w.buffer && v.kind == w.kind && v.byteOffset s == w.byteOffset s && v.count s == w.count s

/-- NaN is the same as NaN and the two zeros are the same; objects are the same if they are one -/
def Value.sameValueZero (s : Store) : Value → Value → Bool
  | undefined, undefined | null, null => true
  | boolean a, boolean b => a == b
  | number x, number y => x.sameValue y
  | string a, string b => a == b
  | vector v, vector w => v.sameValueZero w
  | array v, array w => v.same s w
  | object i, object j => i == j
  | _, _ => false

def booleanText (b : Bool) : String := if b then "true" else "false"

def Lane.text (s : Shape) : Lane → String
  | .int n => Number.text (Binary.ofInt (s.visible n))
  | .float x => Number.text x.convert
  | .bool b => booleanText b

/-- the text of a vector: its shape, and its lanes separated by commas -/
def Packed.text (v : Packed) : String :=
  "SIMD." ++ v.shape.name ++ "(" ++ ",".intercalate (v.lanes.map (Lane.text v.shape)) ++ ")"

def Value.text (s : Store) : Value → String
  | undefined => "undefined"
  | null => "null"
  | boolean b => booleanText b
  | number x => Number.text x
  | string text => text
  | vector v => v.text
  | array v => ",".intercalate ((v.elements s).map Number.text)
  | object _ => "[object Object]"

/-- a lane as it is stored -/
def Lane.debugText : Lane → String
  | .int n => toString n
  | .float x => Number.debugText x
  | .bool b => booleanText b

def Packed.debugText (v : Packed) : String :=
  v.shape.name ++ "[" ++ ", ".intercalate (v.lanes.map Lane.debugText) ++ "]"

end Vector128
