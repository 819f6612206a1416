import RadioRing.Number.Binary64
import RadioRing.Text.Digits
/-!
# Number/Text — numbers as people type them

`integer?` and `natural?` read digits in base ten behind an optional sign, leading zeros included;
`float?` reads decimal fractions with an optional power of ten, and the words for infinity and for
no number **in any mixture of cases**.  None of them accepts spaces or anything behind the number.
-/

namespace RadioRing.NumberText

/-- An integer behind an optional sign. -/
def integer? (s : String) : Option Int :=
  match s.toList with
  | '-' :: cs => (Digits.natOfDecimalChars? cs).map fun n => -(n : Int)
  | '+' :: cs => (Digits.natOfDecimalChars? cs).map Int.ofNat
  | cs => (Digits.natOfDecimalChars? cs).map Int.ofNat

/-- An integer from `low` to `high`. -/
def integerBetween? (low high : Int) (s : String) : Option Int :=
  (integer? s).bind fun n => if low ≤ n ∧ n ≤ high then some n else none

/-- A natural number up to `most` behind an optional plus sign. -/
def natural? (most : Nat) (s : String) : Option Nat :=
  let digits := match s.toList with
    | '+' :: cs => cs
    | cs => cs
  (Digits.natOfDecimalChars? digits).bind fun n => if n ≤ most then some n else none

/-- A power of ten: nothing, or a mark and an integer. -/
def exponent? : List Char → Option Int
  | [] => some 0
  | c :: cs => if c = 'e' ∨ c = 'E' then integer? (String.ofList cs) else none

/-- A decimal fraction without a sign. -/
def fraction? (negative : Bool) (cs : List Char) : Option Float :=
  let (whole, rest) := cs.span Char.isDigit
  let (part, rest) := match rest with
    | '.' :: rest => rest.span Char.isDigit
    | _ => ([], rest)
  match Digits.natOfDecimalChars? (whole ++ part), exponent? rest with
  | some digits, some power => some (Binary64.ofDecimal negative digits (power - part.length))
  | _, _ => none

/-- A floating-point number. -/
def float? (s : String) : Option Float :=
  let (negative, cs) := match s.toList with
    | '-' :: cs => (true, cs)
    | '+' :: cs => (false, cs)
    | cs => (false, cs)
  let word := String.ofList (cs.map Char.toLower)
  if word = "nan" then some (0.0 / 0.0)
  else if word = "inf" ∨ word = "infinity" then
    some (if negative then -1.0 / 0.0 else 1.0 / 0.0)
  else fraction? negative cs

end RadioRing.NumberText
