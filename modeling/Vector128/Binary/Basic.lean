/-
Values of a binary interchange format: a sign and a magnitude code.

A NaN is an ordinary value here. Moving one keeps its sign and payload, negation and absolute value change nothing but
the sign. Comparison goes by `rank`, the signed code: on values that are not NaN it is the numeric order, with both
zeros at rank 0 and the infinities at the ends.
-/
import Vector128.Binary.Format

namespace Vector128

/-- a sign and a magnitude code -/
structure Binary (f : Format) where
  negative : Bool
  code : BitVec f.codeBits
  deriving DecidableEq, Repr

abbrev Single := Binary .single

/-- a 64-bit float, the Number of scripts -/
abbrev Double := Binary .double

namespace Binary

variable {f : Format}

/-- the bit pattern, sign first -/
def toBits (x : Binary f) : Nat := x.negative.toNat * twoPow f.codeBits + x.code.toNat

/-- the value whose bit pattern is the low bits of `n` -/
def ofBits (n : Nat) : Binary f := ⟨n.testBit f.codeBits, BitVec.ofNat _ n⟩

/-- the value with the given sign and magnitude code -/
def ofCode (negative : Bool) (code : Nat) : Binary f := ⟨negative, BitVec.ofNat _ code⟩

def zero : Binary f := ofCode false 0

def infinity (negative : Bool) : Binary f := ofCode negative f.infinityCode

def nan : Binary f := ofCode false f.quietCode

/-- what an operation without a result gives: the quiet NaN without payload, its sign set -/
def invalid : Binary f := ofCode true f.quietCode

def isNaN (x : Binary f) : Bool := decide (f.infinityCode < x.code.toNat)

def isInfinite (x : Binary f) : Bool := decide (x.code.toNat = f.infinityCode)

def isFinite (x : Binary f) : Bool := decide (x.code.toNat < f.infinityCode)

def isZero (x : Binary f) : Bool := decide (x.code.toNat = 0)

/-- a finite value in units -/
def units (x : Binary f) : Int :=
  if x.negative then -(f.unitsOf x.code.toNat : Int) else f.unitsOf x.code.toNat

def neg (x : Binary f) : Binary f := { x with negative := !x.negative }

def abs (x : Binary f) : Binary f := { x with negative := false }

def quiet (x : Binary f) : Binary f := { x with code := x.code ||| BitVec.ofNat _ f.quietBit }

/-- the place of a value in the numeric order -/
def rank (x : Binary f) : Int := if x.negative then -(x.code.toNat : Int) else x.code.toNat

/-- whether either operand is NaN, which no order relation holds of -/
def unordered (x y : Binary f) : Bool := x.isNaN || y.isNaN

def less (x y : Binary f) : Bool := !unordered x y && decide (x.rank < y.rank)

def lessEq (x y : Binary f) : Bool := !unordered x y && decide (x.rank ≤ y.rank)

/-- numeric equality: the zeros are equal, and NaN differs from everything -/
def equal (x y : Binary f) : Bool := !unordered x y && decide (x.rank = y.rank)

/-- numeric equality, save that NaN equals NaN -/
def sameValue (x y : Binary f) : Bool := x.isNaN && y.isNaN || equal x y

/-- the value kept between two others; NaN is kept -/
def clamp (x low high : Binary f) : Binary f :=
  let x := if x.less low then low else x
  if high.less x then high else x

/-- whether a script takes the number for true -/
def truthy (x : Binary f) : Bool := !(x.isZero || x.isNaN)

end Binary

end Vector128
