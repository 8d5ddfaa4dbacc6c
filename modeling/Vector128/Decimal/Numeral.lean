/-
Decimal numerals, and the 64-bit float nearest to one.

A numeral is an optional sign, digits with at most one point among or around them, at least one digit, and an optional
exponent: `e` or `E`, an optional sign, at least one digit. `Numeral.ofText?` accepts exactly these texts.
-/
import Vector128.Binary.Arith

namespace Vector128

/-- a signed decimal, `± coefficient * 10 ^ exponent` -/
structure Numeral where
  negative : Bool
  coefficient : Nat
  exponent : Int
  deriving DecidableEq, Repr

/-- the digit that a character stands for in the given radix, of either case -/
def digitValue? (radix : Nat) (c : Char) : Option Nat :=
  let value :=
    if '0' ≤ c ∧ c ≤ '9' then some (c.toNat - '0'.toNat)
    else if 'a' ≤ c ∧ c ≤ 'z' then some (c.toNat - 'a'.toNat + 10)
    else if 'A' ≤ c ∧ c ≤ 'Z' then some (c.toNat - 'A'.toNat + 10)
    else none
  value.filter (· < radix)

def natOfDigits (digits : List Char) : Nat := digits.foldl (fun n c => 10 * n + (c.toNat - '0'.toNat)) 0

/-- the decimal digits that a text starts with, and the rest -/
def spanDigits (text : List Char) : List Char × List Char := (text.takeWhile Char.isDigit, text.dropWhile Char.isDigit)

/-- whether a text starts with a minus sign, and the text after its sign -/
def splitSign : List Char → Bool × List Char
  | '-' :: rest => (true, rest)
  | '+' :: rest => (false, rest)
  | text => (false, text)

namespace Numeral

def exponentOf? : List Char → Option Int
  | [] => some 0
  | mark :: rest =>
    let (negative, rest) := splitSign rest
    let (digits, rest) := spanDigits rest
    if (mark = 'e' ∨ mark = 'E') ∧ digits ≠ [] ∧ rest = [] then
      some (if negative then -(natOfDigits digits : Int) else natOfDigits digits)
    else none

/-- the fraction digits after a point, and the rest -/
def spanFraction : List Char → List Char × List Char
  | '.' :: rest => spanDigits rest
  | text => ([], text)

def ofText? (text : List Char) : Option Numeral :=
  let (negative, rest) := splitSign text
  let (whole, rest) := spanDigits rest
  let (fraction, rest) := spanFraction rest
  if whole = [] ∧ fraction = [] then none
  else (exponentOf? rest).map fun exponent =>
    ⟨negative, natOfDigits (whole ++ fraction), exponent - fraction.length⟩

/-- the power of ten that `n` reaches, or a lower one: `10 ^ reached n ≤ n`, where `n` is not zero -/
def reached (n : Nat) : Nat := n.log2 * 3 / 10

/-- the power of ten that `n` stays below, or a higher one: `n < 10 ^ unreached n` -/
def unreached (n : Nat) : Nat := (n.log2 + 1) * 28 / 93 + 1

/-- The nearest 64-bit float. A magnitude of `10 ^ 313` or more is infinite and one below `10 ^ (-330)` is zero, and so
powers far beyond these are never computed. -/
def toDouble (n : Numeral) : Double :=
  if n.coefficient = 0 ∨ n.exponent + unreached n.coefficient < -330 then Binary.ofCode n.negative 0
  else if 312 < n.exponent + reached n.coefficient then Binary.infinity n.negative
  else
    Binary.ofUnits n.negative (n.coefficient * tenPow n.exponent.toNat * Format.double.one) (tenPow (-n.exponent).toNat)

end Numeral

end Vector128
