/-
The lesser and the greater of two values, and the reciprocals.

`minimum` and `maximum` let a NaN through, the first one if both are; `minimumNumber` and `maximumNumber` prefer the
operand that is a number. All four put -0 below +0, and return one of their operands unchanged.
-/
import Vector128.Binary.Arith

namespace Vector128.Binary

variable {f : Format}

/-- the order of the numbers with -0 below +0 -/
def below (x y : Binary f) : Bool := decide (x.rank < y.rank) || decide (x.rank = y.rank) && x.negative && !y.negative

def minimum (x y : Binary f) : Binary f :=
  if x.isNaN then x else if y.isNaN then y else if below x y then x else y

def maximum (x y : Binary f) : Binary f :=
  if x.isNaN then x else if y.isNaN then y else if below y x then x else y

def minimumNumber (x y : Binary f) : Binary f :=
  if x.isNaN then y else if y.isNaN then x else minimum x y

def maximumNumber (x y : Binary f) : Binary f :=
  if x.isNaN then y else if y.isNaN then x else maximum x y

/-- `1 / x` through the 64-bit format; both infinities give +0 -/
def reciprocal (x : Single) : Single :=
  if x.isNaN then x
  else if x.isZero then infinity x.negative
  else if x.isInfinite then zero
  else convert (div (ofInt 1 : Double) (convert x))

/-- `1 / √x` through the 64-bit format; a negative number has none -/
def reciprocalSqrt (x : Single) : Single :=
  if x.isNaN then x
  else if x.isZero then infinity x.negative
  else if x.negative then nan
  else if x.isInfinite then zero
  else convert (div (ofInt 1 : Double) (sqrt (convert x)))

end Vector128.Binary
