/-
Text of vectors for readers: lanes separated by a comma and a space, each written by a locale.

A locale says how a Number and a boolean are written, and may fail. The default one writes at most three places, groups
the integer part by thousands, and marks a negative sign also on zero.
-/
import Vector128.Decimal.Thousandths
import Vector128.Value

namespace Vector128

structure Locale where
  number : Double → Option String
  boolean : Bool → Option String := fun b => some (booleanText b)

namespace Locale

/-- digits with a comma before every third from the end -/
def grouped : List Char → List Char
  | [] => []
  | [digit] => [digit]
  | digit :: rest => if rest.length % 3 = 0 then digit :: ',' :: grouped rest else digit :: grouped rest

/-- three places, without zeros at the end -/
def placesOf (n : Nat) : List Char :=
  let digits := Nat.toDigits 10 n
  ((List.replicate (3 - digits.length) '0' ++ digits).reverse.dropWhile (· == '0')).reverse

/-- a number of thousandths: the integer part in groups, and the places if there are any -/
def thousandthsText (n : Nat) : List Char :=
  let places := placesOf (n % 1000)
  grouped (Nat.toDigits 10 (n / 1000)) ++ if places = [] then [] else '.' :: places

def numberText (x : Double) : String :=
  if x.isNaN then "NaN"
  else
    (if x.negative then "-" else "") ++
      if x.isInfinite then "∞" else String.ofList (thousandthsText (thousandths x))

def default : Locale := { number := fun x => some (numberText x) }

def laneText (l : Locale) (s : Shape) (lane : Lane) : Option String :=
  match s.laneValue lane with
  | .number x => l.number x
  | .boolean b => l.boolean b
  | _ => none

def vectorText (l : Locale) (v : Packed) : Option String :=
  (v.lanes.mapM (l.laneText v.shape)).map fun lanes =>
    "SIMD." ++ v.shape.name ++ "(" ++ ", ".intercalate lanes ++ ")"

end Locale

/-- a vector in the default locale, which never fails -/
def Packed.localeText (v : Packed) : String := (Locale.default.vectorText v).getD ""

/-- the inspection text of a vector that waits to be written in a locale -/
def Packed.localeDebugText (v : Packed) : String := "LocaleDisplay \x7b value: " ++ v.debugText ++ ", .. \x7d"

end Vector128
