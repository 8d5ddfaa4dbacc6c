/-
Numbers to integers.

- `toUnsigned` and `toSigned` drop the fraction and keep the low bits; NaN and the infinities become zero. What they
  keep is computed on Numbers, as a remainder (`residue`), and becomes a word only then.
- `toLength` clamps to `0 … 2 ^ 53 - 1`. A Number serves as an index only if it equals its own length (`index?`), which
  rules out fractions, negative numbers and NaN, and admits -0.
-/
import Vector128.Binary.Arith

namespace Vector128.Number

/-- the integer part, or zero where there is none -/
def integerPart (x : Double) : Int := x.truncate?.getD 0

/-- A finite Number without its fraction, modulo `2 ^ bits`. The remainder has the sign of the Number, so one below zero
has the modulus added. -/
def residue (bits : Nat) (x : Double) : Double :=
  let modulus : Double := Binary.ofNat (twoPow bits)
  let rest := x.trunc.rem modulus
  if rest.less Binary.zero then rest.add modulus else rest

/-- the integer part kept between zero and a limit; NaN becomes zero -/
def clamped (limit : Nat) (x : Double) : Nat :=
  if x.isInfinite then
    if x.negative then 0 else limit
  else min (integerPart x).toNat limit

/-- the low bits of the integer part, of a word of 64 bits -/
def lowBits (bits : Nat) (x : Double) : BitVec bits :=
  if x.isFinite then BitVec.ofNat bits (clamped (twoPow 64 - 1) (residue bits x)) else 0

/-- the low bits of the integer part, as an unsigned integer -/
def toUnsigned (bits : Nat) (x : Double) : Nat := (lowBits bits x).toNat

/-- the low bits of the integer part, as a signed integer -/
def toSigned (bits : Nat) (x : Double) : Int := (lowBits bits x).toInt

/-- the integer part as a Number: NaN becomes zero, an infinity stays, and there is no negative zero -/
def toIntegerOrInfinity (x : Double) : Double :=
  if x.isInfinite then x else Binary.ofInt (integerPart x)

/-- the largest integer that a Number tells from its successor -/
def maxSafeInteger : Nat := twoPow 53 - 1

def toLength (x : Double) : Nat := clamped maxSafeInteger x

/-- the natural number that a Number is, up to the largest length -/
def index? (x : Double) : Option Nat :=
  if x.equal (Binary.ofNat (toLength x)) then some (toLength x) else none

end Vector128.Number
