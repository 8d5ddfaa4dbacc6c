/-
The functions that scripts call on a shape: their names, how many arguments they declare, and which shapes have them.

`Builtin.all` is the order of every listing: the named functions first, then for each shape the conversion of its lanes
and the conversion of its bits.
-/
import Vector128.Packed.Arith
import Vector128.Packed.Compare

namespace Vector128

/-- how many lanes a load or store moves -/
inductive LaneAmount
  | all
  | one
  | two
  | three
  deriving DecidableEq, Repr

namespace LaneAmount

def lanes (s : Shape) : LaneAmount → Nat
  | all => s.laneCount
  | one => 1
  | two => 2
  | three => 3

/-- what the amount adds to the name of a function -/
def digit : LaneAmount → String
  | all => ""
  | one => "1"
  | two => "2"
  | three => "3"

end LaneAmount

inductive Builtin
  | splat
  | check
  | unary (op : UnaryOp)
  | binary (op : BinaryOp)
  | compare (op : Comparison)
  | anyTrue
  | allTrue
  | select
  | shiftLeft
  | shiftRight
  | extractLane
  | replaceLane
  | load (amount : LaneAmount)
  | store (amount : LaneAmount)
  | swizzle
  | shuffle
  /-- converts the lanes of a vector of another shape -/
  | convert (source : Shape)
  /-- takes the bits of a vector of another shape -/
  | reinterpret (source : Shape)
  deriving DecidableEq, Repr

def UnaryOp.name : UnaryOp → String
  | neg => "neg"
  | sqrt => "sqrt"
  | reciprocal => "reciprocalApproximation"
  | reciprocalSqrt => "reciprocalSqrtApproximation"
  | abs => "abs"
  | not => "not"

def BinaryOp.name : BinaryOp → String
  | add => "add"
  | sub => "sub"
  | mul => "mul"
  | div => "div"
  | max => "max"
  | min => "min"
  | maxNumber => "maxNum"
  | minNumber => "minNum"
  | and => "and"
  | or => "or"
  | xor => "xor"
  | addSaturate => "addSaturate"
  | subSaturate => "subSaturate"

def Comparison.name : Comparison → String
  | less => "lessThan"
  | lessEq => "lessThanOrEqual"
  | greater => "greaterThan"
  | greaterEq => "greaterThanOrEqual"
  | equal => "equal"
  | notEqual => "notEqual"

namespace Builtin

def name : Builtin → String
  | splat => "splat"
  | check => "check"
  | unary op => op.name
  | binary op => op.name
  | compare op => op.name
  | anyTrue => "anyTrue"
  | allTrue => "allTrue"
  | select => "select"
  | shiftLeft => "shiftLeftByScalar"
  | shiftRight => "shiftRightByScalar"
  | extractLane => "extractLane"
  | replaceLane => "replaceLane"
  | load amount => "load" ++ amount.digit
  | store amount => "store" ++ amount.digit
  | swizzle => "swizzle"
  | shuffle => "shuffle"
  | convert source => "from" ++ source.name
  | reinterpret source => "from" ++ source.name ++ "Bits"

/-- the functions that do not come from a pair of shapes -/
def named : List Builtin :=
  [splat, check, binary .add, binary .sub, binary .mul, binary .div, binary .max, binary .min, binary .maxNumber,
    binary .minNumber, unary .neg, unary .sqrt, unary .reciprocal, unary .reciprocalSqrt, unary .abs, binary .and,
    binary .or, binary .xor, unary .not, compare .less, compare .lessEq, compare .greater, compare .greaterEq,
    compare .equal, compare .notEqual, anyTrue, allTrue, select, binary .addSaturate, binary .subSaturate, shiftLeft,
    shiftRight, extractLane, replaceLane, load .all, load .one, load .two, load .three, store .all, store .one,
    store .two, store .three, swizzle, shuffle]

def all : List Builtin := named ++ Shape.all.flatMap fun source => [convert source, reinterpret source]

def ofName? (name : String) : Option Builtin := all.find? (·.name == name)

/-- the number of parameters, lane indices of a permutation not counted -/
def fixedLength : Builtin → Nat
  | splat | check | unary _ | anyTrue | allTrue | swizzle | convert _ | reinterpret _ => 1
  | binary _ | compare _ | shiftLeft | shiftRight | extractLane | load _ | shuffle => 2
  | select | replaceLane | store _ => 3

/-- the number of parameters, one lane index for each lane of a permutation -/
def length (b : Builtin) (s : Shape) : Nat :=
  match b with
  | swizzle | shuffle => b.fixedLength + s.laneCount
  | b => b.fixedLength

/-! ## Availability -/

/-- whether vectors of a shape have the function -/
def isSupported (b : Builtin) (s : Shape) : Bool :=
  match b with
  | splat | check | extractLane | replaceLane => true
  | binary op =>
    match op with
    | .add | .sub | .mul => !s.isBool
    | .div | .max | .min | .maxNumber | .minNumber => s.isFloat
    | .and | .or | .xor => !s.isFloat
    | .addSaturate | .subSaturate => s.isInteger
  | unary op =>
    match op with
    | .neg => !s.isBool && !s.isUnsigned
    | .sqrt | .reciprocal | .reciprocalSqrt | .abs => s.isFloat
    | .not => !s.isFloat
  | compare _ | select | swizzle | shuffle => !s.isBool
  | anyTrue | allTrue => s.isBool
  | shiftLeft | shiftRight => s.isInteger
  | load amount | store amount => !s.isBool && (amount == .all || s.laneCount == 4)
  | convert source | reinterpret source => !s.isBool && !source.isBool

def find? (s : Shape) (name : String) : Option Builtin := (ofName? name).filter (·.isSupported s)

/-- the functions of a shape in the order of listings -/
def available (s : Shape) : List Builtin := all.filter (·.isSupported s)

def text (b : Builtin) (s : Shape) : String := s.name ++ "." ++ b.name

def signature (b : Builtin) (s : Shape) : String := b.name ++ "/" ++ toString (b.length s)

end Builtin

end Vector128
