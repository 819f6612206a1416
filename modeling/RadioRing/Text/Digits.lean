/-!
# Text/Digits — numbers in a base, of a least width

`decimal` and `hex` write a number in base ten and in base sixteen, `padded` adds zeros in front,
and `hexBytes` writes a list of bytes with two digits each; `bytesOfHex?` reads that form back.
-/

namespace RadioRing.Digits

/-- A number in base ten. -/
def decimal (n : Nat) : String := String.ofList (Nat.toDigits 10 n)

/-- `digits`, with zeros in front up to `width` characters. -/
def padded (width : Nat) (digits : String) : String :=
  String.ofList (List.replicate (width - digits.length) '0') ++ digits

/-- A number in base sixteen, in lower case. -/
def hex (n : Nat) : String := String.ofList (Nat.toDigits 16 n)

/-- The character of a base-sixteen digit. -/
def hexDigit (n : Nat) : Char := if n < 10 then Char.ofNat (48 + n) else Char.ofNat (87 + n)

/-- Two lower-case digits for every byte. -/
def hexBytes (bytes : List UInt8) : String :=
  String.ofList (bytes.flatMap fun b => [hexDigit (b.toNat / 16), hexDigit (b.toNat % 16)])

/-- The value of a base-sixteen digit of either case. -/
def hexValue? (c : Char) : Option Nat :=
  if '0' ≤ c ∧ c ≤ '9' then some (c.toNat - 48)
  else if 'a' ≤ c ∧ c ≤ 'f' then some (c.toNat - 87)
  else if 'A' ≤ c ∧ c ≤ 'F' then some (c.toNat - 55)
  else none

/-- The bytes that pairs of base-sixteen digits stand for. -/
def bytesOfHexChars? : List Char → Option (List UInt8)
  | [] => some []
  | [_] => none
  | high :: low :: rest => do
    let h ← hexValue? high
    let l ← hexValue? low
    let tail ← bytesOfHexChars? rest
    return (16 * h + l).toUInt8 :: tail

/-- Reads what `hexBytes` writes. -/
def bytesOfHex? (text : String) : Option (List UInt8) := bytesOfHexChars? text.toList

/-- The value of a base-ten digit. -/
def decimalValue? (c : Char) : Option Nat :=
  if '0' ≤ c ∧ c ≤ '9' then some (c.toNat - 48) else none

/-- The number a non-empty run of base-ten digits stands for. -/
def natOfDecimalChars? (cs : List Char) : Option Nat :=
  if cs.isEmpty then none
  else cs.foldlM (fun n c => (decimalValue? c).map (10 * n + ·)) 0

end RadioRing.Digits
