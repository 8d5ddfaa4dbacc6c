/-
Typed arrays: views of a buffer as elements of one kind.

- A view is made of a whole number of elements, aligned to their size, inside its buffer (`View.ofBuffer?`).
- Once its buffer is detached, a view has length and offset zero and none of its bytes can be accessed.
- Elements are written as the Number converts to the element kind: integers modulo their width, clamped bytes rounded
  to nearest with ties to even, floats to nearest.
-/
import Vector128.Memory.Store
import Vector128.Number.Coerce

namespace Vector128

inductive ElementKind
  | int8
  | uint8
  | uint8Clamped
  | int16
  | uint16
  | int32
  | uint32
  | float32
  | float64
  deriving DecidableEq, Repr

namespace ElementKind

def all : List ElementKind := [int8, uint8, uint8Clamped, int16, uint16, int32, uint32, float32, float64]

def size : ElementKind → Nat
  | int8 | uint8 | uint8Clamped => 1
  | int16 | uint16 => 2
  | int32 | uint32 | float32 => 4
  | float64 => 8

def name : ElementKind → String
  | int8 => "Int8Array"
  | uint8 => "Uint8Array"
  | uint8Clamped => "Uint8ClampedArray"
  | int16 => "Int16Array"
  | uint16 => "Uint16Array"
  | int32 => "Int32Array"
  | uint32 => "Uint32Array"
  | float32 => "Float32Array"
  | float64 => "Float64Array"

def ofName? (name : String) : Option ElementKind := all.find? (·.name == name)

end ElementKind

/-- the nearest integer to a Number, and of two that are as near the even one -/
def roundTiesEven (x : Double) : Double :=
  let low := x.floor
  let rest := x.sub low
  let half : Double := Binary.ofUnits false Format.double.one 2
  if rest.less half || rest.equal half && (low.rem (Binary.ofNat 2)).equal Binary.zero then low
  else low.add (Binary.ofNat 1)

/-- the byte nearest to a Number kept between 0 and 255; NaN becomes 0 -/
def clampedByte (x : Double) : Nat :=
  Number.toUnsigned 8 (if x.isNaN then Binary.zero else roundTiesEven (x.clamp Binary.zero (Binary.ofNat 255)))

namespace ElementKind

/-- the bytes of a Number converted to the element kind -/
def encode (k : ElementKind) (x : Double) : List UInt8 :=
  match k with
  | int8 => Bytes.ofInt 1 (Number.toSigned 8 x)
  | uint8 => Bytes.ofNat 1 (Number.toUnsigned 8 x)
  | uint8Clamped => Bytes.ofNat 1 (clampedByte x)
  | int16 => Bytes.ofInt 2 (Number.toSigned 16 x)
  | uint16 => Bytes.ofNat 2 (Number.toUnsigned 16 x)
  | int32 => Bytes.ofInt 4 (Number.toSigned 32 x)
  | uint32 => Bytes.ofNat 4 (Number.toUnsigned 32 x)
  | float32 => Bytes.ofNat 4 (x.convert : Single).toBits
  | float64 => Bytes.ofNat 8 x.toBits

/-- The Number that the bytes of an element denote. Integers are read with a sign, and what has none is then seen
without it. -/
def decode (k : ElementKind) (bytes : List UInt8) : Double :=
  match k with
  | int8 | int16 | int32 => Binary.ofInt (Bytes.toInt bytes)
  | uint8 | uint8Clamped | uint16 | uint32 => Binary.ofNat (Bytes.toNat (Bytes.ofInt bytes.length (Bytes.toInt bytes)))
  | float32 => (Binary.ofBits (Bytes.toNat bytes) : Single).convert
  | float64 => Binary.ofBits (Bytes.toNat bytes)

end ElementKind

/-! ## Views -/

/-- `length` elements of a buffer, the first one at the byte `start` -/
structure View where
  buffer : Nat
  kind : ElementKind
  start : Nat
  length : Nat
  deriving DecidableEq, Repr

namespace View

/-- A view of a new buffer of zeros. The number of its bytes is assumed to be counted with overflow checks, so that a
number of more than 64 bits is a misuse like any other that cannot be allocated (`Store.allocate`). Without the checks
it would wrap around, and a view of `2 ^ 61` elements of 8 bytes would be larger than its buffer. -/
def allocate (s : Store) (kind : ElementKind) (length : Nat) : Outcome (View × Store) :=
  (s.allocate (length * kind.size)).map fun (id, s) => (⟨id, kind, 0, length⟩, s)

/-- a view of a new buffer that holds the given elements -/
def ofElements (s : Store) (kind : ElementKind) (elements : List Double) : View × Store :=
  let (id, s) := s.addBuffer (Buffer.ofBytes (elements.flatMap kind.encode))
  (⟨id, kind, 0, elements.length⟩, s)

/-- whether elements of a kind end within a limit -/
def fits (kind : ElementKind) (start length limit : Nat) : Bool :=
  match product? length kind.size with
  | some size => within size start limit
  | none => false

/-- a view of an existing buffer, if it is aligned and fits -/
def ofBuffer? (s : Store) (id : Nat) (kind : ElementKind) (start length : Nat) : Option View :=
  if start % kind.size = 0 ∧ fits kind start length (s.buffer id).byteLength then some ⟨id, kind, start, length⟩
  else none

def isDetached (v : View) (s : Store) : Bool := (s.buffer v.buffer).detached

/-- the byte of the buffer at which the view starts -/
def byteOffset (v : View) (s : Store) : Nat := if v.isDetached s then 0 else v.start

/-- the number of elements -/
def count (v : View) (s : Store) : Nat := if v.isDetached s then 0 else v.length

def byteLength (v : View) (s : Store) : Nat := v.count s * v.kind.size

/-- The bytes of the view: those of its buffer from the start of the view on, as many as the view has. -/
def region (v : View) : Region Store where
  byteLength := v.byteLength
  read s offset count :=
    if within offset count (v.byteLength s) then (Store.whole v.buffer).read s (v.start + offset) count
    else .error .outOfBounds
  write s offset bytes :=
    if within offset bytes.length (v.byteLength s) then (Store.whole v.buffer).write s (v.start + offset) bytes
    else (.error .outOfBounds, s)

def get (v : View) (s : Store) (index : Nat) : Outcome Double :=
  if index < v.count s then (v.region.read s (index * v.kind.size) v.kind.size).map v.kind.decode
  else .error .outOfBounds

def set (v : View) (s : Store) (index : Nat) (x : Double) : Outcome Unit × Store :=
  if index < v.count s then v.region.write s (index * v.kind.size) (v.kind.encode x)
  else (.error .outOfBounds, s)

def elements (v : View) (s : Store) : List Double :=
  (List.range (v.count s)).filterMap fun i => (v.get s i).toOption

end View

end Vector128
