/-
Byte buffers. A `Store` holds every buffer of a run; a buffer is named by its place in the store, so that several views
can share one.

A buffer that is not detached is accessed through its cells. A detached buffer reports no bytes and refuses every
access, even one of no bytes.
-/
import Vector128.Memory.Region

namespace Vector128

structure Buffer where
  bytes : List UInt8
  detached : Bool
  deriving DecidableEq, Repr

namespace Buffer

def ofBytes (bytes : List UInt8) : Buffer := ⟨bytes, false⟩

def detach (b : Buffer) : Buffer := ⟨List.replicate b.bytes.length 0, true⟩

/-- the bytes that can be accessed -/
def contents (b : Buffer) : List UInt8 := if b.detached then [] else b.bytes

def byteLength (b : Buffer) : Nat := b.contents.length

/-- the cells to access, which a detached buffer refuses -/
def cells (b : Buffer) : Outcome (List UInt8) := if b.detached then .error .outOfBounds else .ok b.bytes

/-- the buffer without its contents, for inspection -/
def debugText (b : Buffer) : String :=
  "ArrayBuffer \x7b byte_len: " ++ toString b.byteLength ++ ", detached: " ++ toString b.detached ++ ", .. \x7d"

end Buffer

/-- every buffer of a run, and how many objects it has created -/
structure Store where
  buffers : List Buffer
  objects : Nat
  deriving DecidableEq, Repr

namespace Store

def empty : Store := ⟨[], 0⟩

/-- the buffer at a place; where there is none, nothing can be accessed -/
def buffer (s : Store) (id : Nat) : Buffer := s.buffers.getD id ⟨[], true⟩

def setBuffer (s : Store) (id : Nat) (b : Buffer) : Store := { s with buffers := s.buffers.set id b }

/-- the place of a new buffer, and the store with it -/
def addBuffer (s : Store) (b : Buffer) : Nat × Store := (s.buffers.length, { s with buffers := s.buffers ++ [b] })

def addObject (s : Store) : Nat × Store := (s.objects, { s with objects := s.objects + 1 })

/-- A new buffer of zeros. It is a misuse to ask for more bytes than can be allocated, and so for more than a machine word
counts: sizes are not taken modulo `2 ^ 64`. -/
def allocate (s : Store) (size : Nat) : Outcome (Nat × Store) :=
  if sizeLimit < size then .error .misuse else .ok (s.addBuffer (Buffer.ofBytes (List.replicate size 0)))

def detach (s : Store) (id : Nat) : Store := s.setBuffer id (s.buffer id).detach

/-- all bytes of a buffer -/
def whole (id : Nat) : Region Store where
  byteLength s := (s.buffer id).byteLength
  read s offset count := do Region.cells.read (← (s.buffer id).cells) offset count
  write s offset bytes :=
    match (s.buffer id).cells with
    | .ok row =>
      let (done, row) := Region.cells.write row offset bytes
      (done, s.setBuffer id { s.buffer id with bytes := row })
    | .error fault => (.error fault, s)

end Store

end Vector128
