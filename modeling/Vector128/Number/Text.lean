/-
The text of a Number.

`Number.text` writes the shortest decimal that reads back. It is positional as long as its point falls between the sixth
place behind a leading zero and the twenty-first digit, and otherwise scientific. A zero of either sign is `0`.
`debugText` is the form in which vectors show their float lanes when inspected: it always marks a float as one.
-/
import Vector128.Decimal.Shortest

namespace Vector128.Number

/-- an exponent with its sign: the minus sign, or what stands for plus -/
def exponentText (plus : String) (e : Int) : String := (if e < 0 then "-" else plus) ++ toString e.natAbs

/-- digits with a point after the first, if there are more -/
def pointed : List Char → List Char
  | first :: next :: rest => first :: '.' :: next :: rest
  | digits => digits

def zeros (n : Nat) : List Char := List.replicate n '0'

/-- the digits of a decimal with its point where it belongs, and without a needless one -/
def positional (d : Decimal) : List Char :=
  let digits := d.digits
  let point : Int := digits.length + d.exponent
  if 0 ≤ d.exponent then digits ++ zeros d.exponent.toNat
  else if 0 < point then digits.take point.toNat ++ '.' :: digits.drop point.toNat
  else '0' :: '.' :: zeros (-point).toNat ++ digits

/-- one digit, a point and the others, and the exponent -/
def scientific (plus : String) (d : Decimal) : String :=
  String.ofList (pointed d.digits) ++ "e" ++ exponentText plus (d.digits.length + d.exponent - 1)

/-- the text of a positive decimal in the layout of scripts -/
def decimalText (d : Decimal) : String :=
  let point : Int := d.digits.length + d.exponent
  if -6 < point ∧ point ≤ 21 then String.ofList (positional d) else scientific "+" d

def text (x : Double) : String :=
  if x.isNaN then "NaN"
  else if x.isZero then "0"
  else
    (if x.negative then "-" else "") ++
      if x.isInfinite then "Infinity" else decimalText (Decimal.shortest .double x.code.toNat)

/-- A positive decimal for inspection: scientific from `10 ^ 16` on and below `10 ^ (-4)`, else positional with at least
one place. -/
def debugDecimal (d : Decimal) : String :=
  let point : Int := d.digits.length + d.exponent
  if 16 < point ∨ point < -3 then scientific "" d
  else String.ofList (positional d) ++ if 0 ≤ d.exponent then ".0" else ""

def debugText {f : Format} (x : Binary f) : String :=
  if x.isNaN then "NaN"
  else
    (if x.negative then "-" else "") ++
      if x.isInfinite then "inf"
      else if x.isZero then "0.0"
      else debugDecimal (Decimal.shortest f x.code.toNat)

end Vector128.Number
