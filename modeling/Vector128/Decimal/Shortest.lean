/-
The shortest decimal of a binary value.

A decimal is `coefficient * 10 ^ exponent`. The decimals that read back as a value are those in its rounding interval,
which reaches half way to the neighbouring values and contains its ends when the code is even. `shortest` tries ever
finer grids of powers of ten. On each grid only the two neighbours of the value can lie in the interval; the first grid
with a hit wins, of two hits the nearer one, and of two equally near the upper.
-/
import Vector128.Binary.Basic

namespace Vector128

/-- `coefficient * 10 ^ exponent` -/
structure Decimal where
  coefficient : Nat
  exponent : Int
  deriving DecidableEq, Repr

namespace Decimal

def digits (d : Decimal) : List Char := Nat.toDigits 10 d.coefficient

/-- The interval of a value in half units: its ends, the value between them, and whether the ends belong to it. -/
structure Interval where
  low : Nat
  value : Nat
  high : Nat
  closed : Bool
  deriving DecidableEq, Repr

/-- the decimals that round to the magnitude with the given code, which is not zero -/
def intervalOf (f : Format) (code : Nat) : Interval :=
  let u := f.unitsOf code
  ⟨f.unitsOf (code - 1) + u, 2 * u, u + f.unitsOf (code + 1), code % 2 = 0⟩

/-- whether `num / den` half units lie in the interval -/
def Interval.holds (i : Interval) (num den : Nat) : Bool :=
  if i.closed then decide (i.low * den ≤ num) && decide (num ≤ i.high * den)
  else decide (i.low * den < num) && decide (num < i.high * den)

/-- The neighbours of the value among the multiples of `10 ^ exponent` that lie in the interval; `half` is the number
of half units in one. -/
def Interval.hit? (i : Interval) (half : Nat) (exponent : Int) : Option Nat :=
  let step := half * tenPow exponent.toNat
  let den := tenPow (-exponent).toNat
  let lower := i.value * den / step
  let upper := lower + 1
  let lowerHit := i.holds (lower * step) den
  let upperHit := i.holds (upper * step) den
  if lowerHit && upperHit then
    if i.value * den - lower * step < upper * step - i.value * den then some lower else some upper
  else if lowerHit then some lower
  else if upperHit then some upper
  else none

/-- the first hit on the grids from `10 ^ exponent` down -/
def Interval.search (i : Interval) (half : Nat) : Nat → Int → Decimal
  | 0, exponent => ⟨0, exponent⟩
  | fuel + 1, exponent =>
    match i.hit? half exponent with
    | some coefficient => ⟨coefficient, exponent⟩
    | none => i.search half fuel (exponent - 1)

/-- the power of ten, or one a little above it, of a magnitude in half units -/
def leadingExponent (f : Format) (value : Nat) : Int :=
  ((value.log2 : Int) - f.scale) * 30103 / 100000 + 1

/-- the shortest decimal that reads back as the magnitude with the given code, which is finite and not zero -/
def shortest (f : Format) (code : Nat) : Decimal :=
  let i := intervalOf f code
  i.search (2 * f.one) (f.fractionBits + 5) (leadingExponent f i.value)

end Decimal

end Vector128
