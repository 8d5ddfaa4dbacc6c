/-
Texts as Numbers, in two readings.

- `ofText` is the conversion of scripts. It never fails: what is no number is NaN, and what is blank is zero. Besides
  decimal numerals it reads `Infinity` and integers in radix 16, 8 and 2, whose digits it takes in one at a time,
  rounding after each.
- `ofLiteral` is the reading of literals. It refuses what is no numeral, and knows `inf`, `infinity` and `nan` in any
  case, but no other radix.
-/
import Vector128.Decimal.Numeral
import Vector128.Text.Blank

namespace Vector128.Number

open Binary

def pushDigit (radix : Nat) (n : Double) (digit : Nat) : Double := add (mul n (ofNat radix)) (ofNat digit)

/-- a nonempty row of digits in a radix -/
def ofRadixDigits? (radix : Nat) (digits : List Char) : Option Double :=
  if digits = [] then none
  else digits.foldlM (fun n c => (digitValue? radix c).map (pushDigit radix n)) zero

/-- the radix that a text announces, and its digits -/
def radixDigits? : List Char → Option (Nat × List Char)
  | '0' :: mark :: digits =>
    if mark = 'x' ∨ mark = 'X' then some (16, digits)
    else if mark = 'o' ∨ mark = 'O' then some (8, digits)
    else if mark = 'b' ∨ mark = 'B' then some (2, digits)
    else none
  | _ => none

/-- a number without blanks around it -/
def ofTrimmed? (text : List Char) : Option Double :=
  match radixDigits? text with
  | some (radix, digits) => ofRadixDigits? radix digits
  | none =>
    let (negative, rest) := splitSign text
    if rest = "Infinity".toList then some (infinity negative)
    else (Numeral.ofText? text).map Numeral.toDouble

def ofText (text : List Char) : Double :=
  let trimmed := Text.trim Text.isNumberBlank text
  if trimmed = [] then zero else (ofTrimmed? trimmed).getD nan

/-- why a literal is no number -/
inductive NumeralFault
  | empty
  | invalid
  deriving DecidableEq, Repr

def NumeralFault.message : NumeralFault → String
  | .empty => "cannot parse float from empty string"
  | .invalid => "invalid float literal"

/-- the values that have a name instead of digits -/
def named? (negative : Bool) (word : List Char) : Option Double :=
  let lower := String.ofList (word.map Char.toLower)
  if lower = "inf" ∨ lower = "infinity" then some (infinity negative)
  else if lower = "nan" then some { (nan : Double) with negative }
  else none

def ofLiteral (text : List Char) : Except NumeralFault Double :=
  if text = [] then .error .empty
  else
    match Numeral.ofText? text with
    | some n => .ok n.toDouble
    | none =>
      let (negative, word) := splitSign text
      match named? negative word with
      | some x => .ok x
      | none => .error .invalid

end Vector128.Number
