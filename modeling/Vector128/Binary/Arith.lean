/-
Arithmetic of binary interchange formats. Each operation computes its exact result as a quotient of units and rounds it
once, to nearest with ties to even (`Format.codeOf`).

- A NaN operand is the result, made quiet; of two, the first. An operation without a result gives `Binary.invalid`.
- A sum that cancels is +0, unless both summands are negative zeros.
- `convert` goes from one format to another. A NaN keeps its sign and the leading bits of its payload.
-/
import Vector128.Binary.Basic

namespace Vector128

/-- the largest number whose square is at most `n`, found one bit at a time from the root of `n / 4` -/
def natSqrt (n : Nat) : Nat :=
  if h : n = 0 then 0
  else
    let r := 2 * natSqrt (n / 4)
    if (r + 1) * (r + 1) ≤ n then r + 1 else r
termination_by n
decreasing_by omega

namespace Binary

variable {f : Format}

/-- the nearest value to `± num / den` units -/
def ofUnits (negative : Bool) (num den : Nat) : Binary f := ofCode negative (f.codeOf num den)

def ofInt (n : Int) : Binary f := ofUnits (decide (n < 0)) (n.natAbs * f.one) 1

def ofNat (n : Nat) : Binary f := ofInt n

def convert {g : Format} (x : Binary f) : Binary g :=
  if x.isNaN then
    let payload := x.code.toNat % f.binade * g.binade / f.binade
    (ofCode x.negative (g.infinityCode + payload)).quiet
  else if x.isInfinite then infinity x.negative
  else ofUnits x.negative (x.units.natAbs * g.one) f.one

/-- a finite value with its fraction dropped; NaN and the infinities have none -/
def truncate? (x : Binary f) : Option Int :=
  if x.isFinite then some (x.units.tdiv f.one) else none

/-- the value with its fraction dropped, as a value; a zero keeps its sign -/
def trunc (x : Binary f) : Binary f :=
  if x.isNaN then x.quiet
  else if x.isInfinite then x
  else ofUnits x.negative (x.units.natAbs / f.one * f.one) 1

/-- the greatest integer that is not above the value, as a value; a zero keeps its sign -/
def floor (x : Binary f) : Binary f :=
  if x.isNaN then x.quiet
  else if x.isInfinite then x
  else ofUnits x.negative ((x.units / f.one).natAbs * f.one) 1

/-- the NaN operand that wins, or the result of an operation on numbers -/
def orNaN (x y : Binary f) (result : Binary f) : Binary f :=
  if x.isNaN then x.quiet else if y.isNaN then y.quiet else result

/-- the sum of two numbers, neither of them NaN -/
def addNumbers (x y : Binary f) : Binary f :=
  if x.isInfinite then
    if y.isInfinite && x.negative != y.negative then invalid else x
  else if y.isInfinite then y
  else
    let sum := x.units + y.units
    let negative := if sum = 0 then x.negative && y.negative else decide (sum < 0)
    ofUnits negative sum.natAbs 1

def add (x y : Binary f) : Binary f := orNaN x y (addNumbers x y)

def sub (x y : Binary f) : Binary f := orNaN x y (addNumbers x y.neg)

def mul (x y : Binary f) : Binary f :=
  let negative := x.negative != y.negative
  orNaN x y <|
    if x.isInfinite || y.isInfinite then
      if x.isZero || y.isZero then invalid else infinity negative
    else ofUnits negative (x.units.natAbs * y.units.natAbs) f.one

def div (x y : Binary f) : Binary f :=
  let negative := x.negative != y.negative
  orNaN x y <|
    if x.isInfinite then
      if y.isInfinite then invalid else infinity negative
    else if y.isInfinite then ofCode negative 0
    else if y.isZero then
      if x.isZero then invalid else infinity negative
    else ofUnits negative (x.units.natAbs * f.one) y.units.natAbs

/-- the remainder of the division whose quotient has its fraction dropped, with the sign of the dividend -/
def rem (x y : Binary f) : Binary f :=
  orNaN x y <|
    if x.isInfinite || y.isZero then invalid
    else if y.isInfinite then x
    else ofUnits x.negative (x.units.natAbs % y.units.natAbs) 1

/-- The root of `u` units is `√(u * one)` units. It is taken to two more bits, and a rest sets one bit below them, which
is enough to round it. -/
def sqrt (x : Binary f) : Binary f :=
  if x.isNaN then x.quiet
  else if x.isZero then x
  else if x.negative then invalid
  else if x.isInfinite then x
  else
    let square := x.units.natAbs * f.one * 16
    let root := natSqrt square
    ofUnits false (2 * root + if root * root = square then 0 else 1) 8

end Binary

end Vector128
