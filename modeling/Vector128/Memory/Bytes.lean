/-
Bytes in little-endian order: the first byte is the lowest.
-/
import Vector128.Powers

namespace Vector128.Bytes

/-- the low `count` bytes of a natural number -/
def ofNat : (count : Nat) → (n : Nat) → List UInt8
  | 0, _ => []
  | count + 1, n => UInt8.ofNat n :: ofNat count (n / 256)

def toNat : List UInt8 → Nat
  | [] => 0
  | byte :: rest => byte.toNat + 256 * toNat rest

/-- the low `count` bytes of an integer in two's complement -/
def ofInt (count : Nat) (n : Int) : List UInt8 := ofNat count (n % twoPow (8 * count)).toNat

def toInt (bytes : List UInt8) : Int := (toNat bytes : Int).bmod (twoPow (8 * bytes.length))

end Vector128.Bytes
