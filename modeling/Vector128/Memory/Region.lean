/-
Regions: what bytes are read and written through.

A `Region` is a sequence of bytes somewhere in a state, with the two accesses that all others are made of. A write says
what it leaves behind also where it is refused. `Region.cells` is the plainest region, a row of byte cells that is its
own state; buffers and views are built on it.

Counts of bytes are those of a 64-bit machine: a sum that cannot be counted is within no limit (`within`).
-/
import Vector128.Binary.Basic
import Vector128.Fault
import Vector128.Memory.Bytes

namespace Vector128

/-- the largest number of bytes that can be counted -/
def countLimit : Nat := twoPow 64 - 1

/-- the size that no allocation may exceed -/
def sizeLimit : Nat := twoPow 63 - 1

def sum? (a b : Nat) : Option Nat := if a + b ≤ countLimit then some (a + b) else none

def product? (a b : Nat) : Option Nat := if a * b ≤ countLimit then some (a * b) else none

/-- whether `count` bytes at `offset` end within `limit` bytes -/
def within (offset count limit : Nat) : Bool :=
  match sum? offset count with
  | some last => decide (last ≤ limit)
  | none => false

/-- a sequence of bytes in a state: how many there are, and how those at an offset are read and written -/
structure Region (σ : Type) where
  byteLength : σ → Nat
  read : σ → (offset count : Nat) → Outcome (List UInt8)
  write : σ → (offset : Nat) → List UInt8 → Outcome Unit × σ

namespace Region

variable {σ : Type}

def readInt (p : Region σ) (st : σ) (offset count : Nat) : Outcome Int := (p.read st offset count).map Bytes.toInt

def writeInt (p : Region σ) (st : σ) (offset count : Nat) (n : Int) : Outcome Unit × σ :=
  p.write st offset (Bytes.ofInt count n)

def readFloat (p : Region σ) (st : σ) (offset : Nat) (f : Format) : Outcome (Binary f) :=
  (p.read st offset f.byteCount).map fun bytes => Binary.ofBits (Bytes.toNat bytes)

def writeFloat (p : Region σ) (st : σ) (offset : Nat) {f : Format} (x : Binary f) : Outcome Unit × σ :=
  p.write st offset (Bytes.ofNat f.byteCount x.toBits)

/-- all bytes, or none if they cannot be accessed -/
def contents (p : Region σ) (st : σ) : List UInt8 :=
  match p.read st 0 (p.byteLength st) with
  | .ok bytes => bytes
  | .error _ => []

/-- the cells after bytes have been put into those from `offset` on, one after another -/
def overwrite (cells : List UInt8) (offset : Nat) : List UInt8 → List UInt8
  | [] => cells
  | byte :: rest => overwrite (cells.set offset byte) (offset + 1) rest

/-- a row of cells -/
def cells : Region (List UInt8) where
  byteLength row := row.length
  read row offset count :=
    if within offset count row.length then .ok ((row.drop offset).take count) else .error .outOfBounds
  write row offset bytes :=
    if within offset bytes.length row.length then (.ok (), overwrite row offset bytes) else (.error .outOfBounds, row)

end Region

end Vector128
