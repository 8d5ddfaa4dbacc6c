/-
A magnitude to three decimal places: the exact value is rounded to a multiple of 1/1000, a half to the even one.
-/
import Vector128.Binary.Basic

namespace Vector128

/-- the number of thousandths nearest to a finite magnitude -/
def thousandths (x : Double) : Nat := divRoundEven (x.units.natAbs * 1000) Format.double.one

end Vector128
