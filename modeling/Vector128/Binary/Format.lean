/-
Binary interchange formats, seen through their magnitude codes.

A format has `exponentBits` and `fractionBits`. Leaving the sign out, a bit pattern is a natural number, its code, and
the codes of finite magnitudes come in the order of the magnitudes. Every finite magnitude is a whole number of units,
where a unit is the least positive magnitude, `2 ^ (-scale)`.

- `Format.unitsOf` reads a code as a number of units.
- `Format.codeOf` rounds any quotient of units to the code of the nearest magnitude. A half goes to the even code, and
  what lies beyond the finite magnitudes goes to infinity, so this one function rounds every operation.
-/
import Vector128.Powers

namespace Vector128

/-- the integer nearest to `n / d`; a half goes to the even neighbour -/
def divRoundEven (n d : Nat) : Nat :=
  let q := n / d
  let r := n % d
  if 2 * r < d then q
  else if d < 2 * r then q + 1
  else if q % 2 = 0 then q else q + 1

/-- a binary interchange format, by the sizes of its exponent and fraction fields -/
structure Format where
  exponentBits : Nat
  fractionBits : Nat
  deriving DecidableEq, Repr

namespace Format

abbrev single : Format := ⟨8, 23⟩

abbrev double : Format := ⟨11, 52⟩

/-- the size of a code: all bits but the sign -/
abbrev codeBits (f : Format) : Nat := f.exponentBits + f.fractionBits

def byteCount (f : Format) : Nat := (f.codeBits + 1) / 8

/-- how many codes share an exponent -/
def binade (f : Format) : Nat := twoPow f.fractionBits

/-- the code of infinity; the codes above it are NaNs -/
def infinityCode (f : Format) : Nat := (twoPow f.exponentBits - 1) * f.binade

/-- the leading fraction bit, which a quiet NaN has set -/
def quietBit (f : Format) : Nat := twoPow (f.fractionBits - 1)

/-- the code of the NaN without a payload -/
def quietCode (f : Format) : Nat := f.infinityCode + f.quietBit

/-- a unit is `2 ^ (-scale)`, the least positive magnitude -/
def scale (f : Format) : Nat := twoPow (f.exponentBits - 1) - 2 + f.fractionBits

/-- how many units one is -/
def one (f : Format) : Nat := twoPow f.scale

/-- the magnitude of a code in units: a zero exponent field has no implied leading bit -/
def unitsOf (f : Format) (code : Nat) : Nat :=
  let exponent := code / f.binade
  let fraction := code % f.binade
  if exponent = 0 then fraction else (f.binade + fraction) * twoPow (exponent - 1)

/-- the code of the magnitude nearest to `num / den` units -/
def codeOf (f : Format) (num den : Nat) : Nat :=
  let shift := (num / den).log2 - f.fractionBits
  min (shift * f.binade + divRoundEven num (den * twoPow shift)) f.infinityCode

end Format

end Vector128
