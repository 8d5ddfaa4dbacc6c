/-
Powers of two and of ten. Formats and widths are made of the first, decimal grids of the second.
-/

namespace Vector128

def twoPow (k : Nat) : Nat := Nat.pow 2 k

def tenPow (k : Nat) : Nat := Nat.pow 10 k

end Vector128
