import RadioRing.Number.Power
/-!
# Number/Binary64 — what the bits of a floating-point number mean

`shape` reads the 64 bits of a number as **a sign and `m · 2^q`**, or as one of the values that are
no number.  `nearestBits` goes the other way: from a quotient of natural numbers to the bits of the
nearest number, **ties to the even mantissa**, and `ofDecimal` applies it to a decimal literal.
-/

namespace RadioRing.Binary64

/-- What 64 bits stand for. -/
inductive Shape
  /-- No number. -/
  | nan
  /-- Beyond every number. -/
  | infinite (negative : Bool)
  /-- `mantissa · 2^exponent`, with a sign that zero has too. -/
  | finite (negative : Bool) (mantissa : Nat) (exponent : Int)
deriving DecidableEq, Repr

/-- The meaning of the bits of `x`. -/
def shape (x : Float) : Shape :=
  let bits := x.toBits.toNat
  let negative : Bool := bits / twoTo 63 = 1
  let biased : Nat := bits / twoTo 52 % 2048
  let fraction : Nat := bits % twoTo 52
  if biased = 2047 then
    if fraction = 0 then .infinite negative else .nan
  else if biased = 0 then .finite negative fraction (-1074)
  else .finite negative (twoTo 52 + fraction) ((biased : Int) - 1075)

/-- A quotient rounded to the nearest integer, a half going to the even one. -/
def roundDiv (num den : Nat) : Nat :=
  let whole := num / den
  let twice := 2 * (num % den)
  if twice < den then whole
  else if den < twice then whole + 1
  else whole + whole % 2

/-- The largest `e` with `2^e ≤ num / den`, for positive `num` and `den`. -/
def floorLog2 (num den : Nat) : Int :=
  let guess : Int := (num.log2 : Int) - den.log2
  let fits : Bool :=
    if 0 ≤ guess then den * twoTo guess.toNat ≤ num else den ≤ num * twoTo (-guess).toNat
  if fits then guess else guess - 1

/-- The bits, without the sign, of the number nearest to `num / den`. -/
def nearestBits (num den : Nat) : Nat :=
  if num = 0 then 0
  else
    let exponent := max (floorLog2 num den - 52) (-1074)
    let mantissa :=
      if 0 ≤ exponent then roundDiv num (den * twoTo exponent.toNat)
      else roundDiv (num * twoTo (-exponent).toNat) den
    -- A mantissa that rounds up to the next power of two carries into the exponent by itself.
    let bits := (exponent + 1074).toNat * twoTo 52 + mantissa
    min bits (2047 * twoTo 52)

/-- The number nearest to `digits · 10^exponent`, with a sign. -/
def ofDecimal (negative : Bool) (digits : Nat) (exponent : Int) : Float :=
  let places : Int := (Nat.toDigits 10 digits).length + exponent
  let bits :=
    if digits = 0 ∨ places < -400 then 0
    else if 400 < places then 2047 * twoTo 52
    else if 0 ≤ exponent then nearestBits (digits * tenTo exponent.toNat) 1
    else nearestBits digits (tenTo (-exponent).toNat)
  Float.ofBits (bits + if negative then twoTo 63 else 0).toUInt64

end RadioRing.Binary64
