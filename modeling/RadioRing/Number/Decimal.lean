import RadioRing.Number.Binary64
import RadioRing.Text.Digits
/-!
# Number/Decimal — floating-point numbers as decimal text

`shortest` finds **the fewest digits that read back** as the same number, and of those the nearest
ones; a `Layout` says how such digits are written.  `fixed` writes a number with a given count of
places, a half going to the even digit.
-/

namespace RadioRing.Decimal

open Binary64

/-- Digits in base ten: `digits · 10^exponent`. -/
structure Scaled where
  digits : Nat
  exponent : Int
deriving DecidableEq, Repr

/-- A positive number and the ends of the interval that rounds to it, over one denominator. -/
structure Interval where
  low : Nat
  value : Nat
  high : Nat
  denominator : Nat
  /-- Whether the ends themselves round to the number. -/
  closed : Bool

/-- The interval of `mantissa · 2^exponent`.  Below a power of two the numbers lie twice as dense,
so its lower end is nearer. -/
def Interval.of (mantissa : Nat) (exponent : Int) : Interval :=
  let down := if mantissa = twoTo 52 ∧ -1074 < exponent then 1 else 2
  let scale := twoTo exponent.toNat
  { low := (4 * mantissa - down) * scale
    value := 4 * mantissa * scale
    high := (4 * mantissa + 2) * scale
    denominator := 4 * twoTo (-exponent).toNat
    closed := mantissa % 2 = 0 }

/-- Whether `digits · 10^exponent` lies in the interval. -/
def Interval.holds (i : Interval) (d : Scaled) : Bool :=
  let num := d.digits * tenTo d.exponent.toNat * i.denominator
  let den := tenTo (-d.exponent).toNat
  if i.closed then i.low * den ≤ num && num ≤ i.high * den
  else i.low * den < num && num < i.high * den

/-- The largest `e` with `10^e ≤ value / denominator`, searched downwards from `start`. -/
def Interval.magnitude (i : Interval) : Nat → Int → Int
  | 0, start => start
  | fuel + 1, start =>
    if tenTo start.toNat * i.denominator ≤ i.value * tenTo (-start).toNat then start
    else i.magnitude fuel (start - 1)

/-- The neighbour of the value on the grid of `10^exponent` that lies in the interval; of two such
neighbours the nearer, and the upper one of two equally near. -/
def Interval.neighbour? (i : Interval) (exponent : Int) : Option Scaled :=
  let num := i.value * tenTo (-exponent).toNat
  let den := i.denominator * tenTo exponent.toNat
  let below : Scaled := ⟨num / den, exponent⟩
  let above : Scaled := ⟨num / den + 1, exponent⟩
  let upper := den ≤ 2 * (num % den)
  match i.holds below, i.holds above with
  | true, true => some (if upper then above else below)
  | true, false => some below
  | false, true => some above
  | false, false => none

/-- The first hit on the grids of one digit, two digits and so on. -/
def Interval.search (i : Interval) : Nat → Int → Scaled
  | 0, exponent =>
    ⟨i.value * tenTo (-exponent).toNat / (i.denominator * tenTo exponent.toNat), exponent⟩
  | fuel + 1, exponent => (i.neighbour? exponent).getD (i.search fuel (exponent - 1))

/-- The digits without zeros at the end. -/
def Scaled.trim : Nat → Scaled → Scaled
  | 0, d => d
  | fuel + 1, d =>
    if d.digits % 10 = 0 ∧ d.digits ≠ 0 then Scaled.trim fuel ⟨d.digits / 10, d.exponent + 1⟩ else d

/-- **The fewest digits that read back** as `mantissa · 2^exponent`. -/
def shortest (mantissa : Nat) (exponent : Int) : Scaled :=
  if mantissa = 0 then ⟨0, 0⟩
  else
    let i := Interval.of mantissa exponent
    Scaled.trim 20 (i.search 17 (i.magnitude 700 309))

/-- How the shortest digits of a number are written. -/
structure Layout where
  /-- The least count of places after the point. -/
  places : Nat
  /-- Whether a number whose first digit stands at `10^magnitude` gets an exponent. -/
  scientific : Int → Bool

/-- A number is written out in full, and a whole one without a point. -/
def Layout.full : Layout := ⟨0, fun _ => false⟩

/-- A whole number keeps one place, and very small and very large numbers get an exponent. -/
def Layout.inspected : Layout := ⟨1, fun magnitude => magnitude < -4 || 16 ≤ magnitude⟩

/-- Digits with a point, at least `places` of them behind it. -/
def Scaled.positional (d : Scaled) (places : Nat) : String :=
  let text := Digits.decimal d.digits ++ String.ofList (List.replicate d.exponent.toNat '0')
  let behind := (-d.exponent).toNat
  let text := Digits.padded (behind + 1) text
  let whole := String.ofList (text.toList.take (text.length - behind))
  let part := String.ofList (text.toList.drop (text.length - behind))
  let part := part ++ String.ofList (List.replicate (places - behind) '0')
  if part.isEmpty then whole else whole ++ "." ++ part

/-- The place of the first digit. -/
def Scaled.magnitude (d : Scaled) : Int := (Digits.decimal d.digits).length - 1 + d.exponent

/-- One digit, the others behind a point, and an exponent. -/
def Scaled.withExponent (d : Scaled) : String :=
  let text := Digits.decimal d.digits
  let first := String.ofList (text.toList.take 1)
  let others := String.ofList (text.toList.drop 1)
  let mantissa := if others.isEmpty then first else first ++ "." ++ others
  mantissa ++ "e" ++ toString d.magnitude

/-- The shortest text of a number that reads back, in the given layout. -/
def text (layout : Layout) (x : Float) : String :=
  match shape x with
  | .nan => "NaN"
  | .infinite negative => if negative then "-inf" else "inf"
  | .finite negative mantissa exponent =>
    let d := shortest mantissa exponent
    let sign := if negative then "-" else ""
    if mantissa ≠ 0 ∧ layout.scientific d.magnitude then sign ++ d.withExponent
    else sign ++ d.positional layout.places

/-- A number with exactly `places` places; a half goes to the even digit. -/
def fixed (places : Nat) (x : Float) : String :=
  match shape x with
  | .nan => "NaN"
  | .infinite negative => if negative then "-inf" else "inf"
  | .finite negative mantissa exponent =>
    let units :=
      roundDiv (mantissa * twoTo exponent.toNat * tenTo places) (twoTo (-exponent).toNat)
    let sign := if negative then "-" else ""
    sign ++ (Scaled.mk units (-(places : Int))).positional places

end RadioRing.Decimal
