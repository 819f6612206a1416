import RadioRing.Number.Binary64
import RadioRing.Text.Digits
/-!
# Deployment/Toml/Number — integers and fractions of a settings file

Both may have **single underscores between digits**.  Integers have 64 bits; those without a sign
may be written in base sixteen, eight or two.
-/

namespace RadioRing.Toml

/-- Digits with single underscores between them, without these. -/
def plainDigits? (isDigit : Char → Bool) : List Char → Option (List Char)
  | [] => none
  | [c] => if isDigit c then some [c] else none
  | c :: '_' :: rest => if isDigit c then (plainDigits? isDigit rest).map (c :: ·) else none
  | c :: rest => if isDigit c then (plainDigits? isDigit rest).map (c :: ·) else none

/-- Digits of a number in base ten, which has no zero in front. -/
def wholeDigits? (cs : List Char) : Option (List Char) := do
  let digits ← plainDigits? Char.isDigit cs
  guard (digits.length = 1 ∨ digits.head? ≠ some '0')
  return digits

/-- The value of digits in a base, with underscores. -/
def natIn? (base : Nat) (cs : List Char) : Option Nat := do
  let isDigit (c : Char) : Bool := (Digits.hexValue? c).any (· < base)
  let digits ← plainDigits? isDigit cs
  return (digits.filterMap Digits.hexValue?).foldl (fun n d => base * n + d) 0

/-- The magnitude of an integer. -/
def magnitude? : List Char → Option Nat
  | '0' :: 'x' :: cs => natIn? 16 cs
  | '0' :: 'o' :: cs => natIn? 8 cs
  | '0' :: 'b' :: cs => natIn? 2 cs
  | cs => (wholeDigits? cs).bind Digits.natOfDecimalChars?

/-- A sign and what follows it. -/
def sign : List Char → Option Bool × List Char
  | '-' :: cs => (some true, cs)
  | '+' :: cs => (some false, cs)
  | cs => (none, cs)

/-- An integer of 64 bits.  Only one in base ten has a sign. -/
def integer? (cs : List Char) : Option Int := do
  let (negative, digits) := sign cs
  let plain := digits.length < 2 ∨ ¬digits.head? = some '0'
  guard (negative.isNone ∨ plain)
  let m ← magnitude? digits
  let n : Int := if negative = some true then -(m : Int) else m
  guard (-9223372036854775808 ≤ n ∧ n ≤ 9223372036854775807)
  return n

/-- The power of ten of a fraction, from its mark on. -/
def power? : List Char → Option (Option Int)
  | [] => some none
  | c :: cs =>
    if c = 'e' ∨ c = 'E' then do
      let (negative, digits) := sign cs
      let n ← (plainDigits? Char.isDigit digits).bind Digits.natOfDecimalChars?
      return some (if negative = some true then -(n : Int) else n)
    else none

/-- A fraction: digits with a point and more digits, a power of ten, or both. -/
def fraction? (cs : List Char) : Option Float := do
  let (negative, cs) := sign cs
  let negative := negative = some true
  if cs = ['n', 'a', 'n'] then return 0.0 / 0.0
  if cs = ['i', 'n', 'f'] then return if negative then -1.0 / 0.0 else 1.0 / 0.0
  let (whole, rest) := cs.span fun c => c.isDigit || c = '_'
  let whole ← wholeDigits? whole
  let (part, rest) ← match rest with
    | '.' :: rest => do
      let (part, rest) := rest.span fun c => c.isDigit || c = '_'
      pure (some (← plainDigits? Char.isDigit part), rest)
    | rest => pure (none, rest)
  let power ← power? rest
  guard (part.isSome ∨ power.isSome)
  let behind := part.getD []
  let digits ← Digits.natOfDecimalChars? (whole ++ behind)
  let x := Binary64.ofDecimal negative digits (power.getD 0 - behind.length)
  guard (negative ∨ x.isFinite)
  return x

end RadioRing.Toml
