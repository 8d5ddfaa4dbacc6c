/-
How a Number is displayed.

The decimal of a Number is first written in scientific form, by a formatter that hands over the text in pieces of its own
choosing. `Collected` is what has been taken in of them, one character after the other: the digits, as long as there is
room, and after the mark the size and the sign of the exponent, as long as it is a word of 32 bits. The digits are then
laid out by where their point falls. `Number.text` says in one step what comes of it.
-/
import Vector128.Number.Text

namespace Vector128.Number

/-- what has been taken in of a decimal in scientific form -/
structure Collected where
  digits : List Char
  exponent : Nat
  inExponent : Bool
  exponentNegative : Bool
  deriving DecidableEq, Repr

namespace Collected

def empty : Collected := ⟨[], 0, false, false⟩

def room : Nat := 32

/-- the next character taken in, unless there are too many digits or the exponent is too large -/
def push (s : Collected) (c : Char) : Option Collected :=
  if c = 'e' then some { s with inExponent := true }
  else if c = '-' ∧ s.inExponent = true then some { s with exponentNegative := true }
  else if c.isDigit then
    if s.inExponent then
      let exponent := 10 * s.exponent + (c.toNat - '0'.toNat)
      if exponent < twoPow 31 then some { s with exponent } else none
    else if s.digits.length < room then some { s with digits := s.digits ++ [c] }
    else none
  else some s

def pushAll (s : Collected) (piece : List Char) : Option Collected := piece.foldlM push s

def ofPieces? (pieces : List (List Char)) : Option Collected := pieces.foldlM pushAll empty

def signedExponent (s : Collected) : Int := if s.exponentNegative then -(s.exponent : Int) else s.exponent

end Collected

/-- the first digit, a point and the others if there are any, and an exponent -/
def withExponent? (e : Int) : List Char → Option (List Char)
  | [] => none
  | first :: rest =>
    some (first :: (if rest = [] then [] else '.' :: rest) ++
      'e' :: (if e < 0 then '-' else '+') :: Nat.toDigits 10 e.natAbs)

/-- the layout of digits whose point falls behind the `n`th place -/
def laidOut? (digits : List Char) (n : Int) : Option (List Char) :=
  if digits.length ≤ n ∧ n ≤ 21 then some (digits ++ zeros (n - digits.length).toNat)
  else if 0 < n ∧ n ≤ 21 then some (digits.take n.toNat ++ '.' :: digits.drop n.toNat)
  else if -6 < n ∧ n ≤ 0 then some ('0' :: '.' :: zeros (-n).toNat ++ digits)
  else withExponent? (n - 1) digits

/-- The text of a Number whose scientific form is rendered in pieces. There is none if the digits or the exponent find no
room. -/
def display? (render : Double → List (List Char)) (x : Double) : Option String :=
  if x.isNaN then some "NaN"
  else if x.equal Binary.zero then some "0"
  else if x.isInfinite then some (if x.less Binary.zero then "-Infinity" else "Infinity")
  else
    (Collected.ofPieces? (render x.abs)).bind fun s =>
      if s.signedExponent + 1 < twoPow 31 then
        (laidOut? s.digits (s.signedExponent + 1)).map fun body =>
          (if x.less Binary.zero then "-" else "") ++ String.ofList body
      else none

end Vector128.Number
