/-!
# Number/Power — powers of two and of ten

`twoTo` and `tenTo` are the two scales that numbers are written in: bits and decimal places.
-/

namespace RadioRing

/-- The weight of the bit number `n`. -/
def twoTo (n : Nat) : Nat := Nat.pow 2 n

/-- The weight of the decimal place number `n`. -/
def tenTo (n : Nat) : Nat := Nat.pow 10 n

end RadioRing
