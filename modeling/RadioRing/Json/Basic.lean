import RadioRing.Text.Digits
/-!
# Json — data as text, and how it is written

A `Json` value keeps a number as it was written (`Literal`): its digits, its power of ten and
whether it had a point or an exponent.  **`1` and `1.0` are different numbers here**, since one of
them is an integer.  `Json.render` writes a value without any spaces.
-/

namespace RadioRing

/-- A number as it was written: `digits · 10^exponent` with a sign. -/
structure Literal where
  negative : Bool := false
  digits : Nat
  exponent : Int := 0
  /-- Whether it had neither a point nor an exponent. -/
  integral : Bool := true
deriving DecidableEq, Inhabited, Repr

namespace Literal

/-- The natural number that was written as an integer. -/
def nat? (l : Literal) : Option Nat := if l.integral ∧ ¬l.negative then some l.digits else none

/-- The text of a number. -/
def text (l : Literal) : String :=
  (if l.negative then "-" else "") ++ Digits.decimal l.digits ++
    if l.integral then "" else "e" ++ toString l.exponent

end Literal

/-- A value of the data format. -/
inductive Json
  | null
  | bool (b : Bool)
  | number (l : Literal)
  | text (s : String)
  | array (items : List Json)
  /-- Names and values in the order in which they were written. -/
  | object (fields : List (String × Json))
deriving Inhabited, Repr

namespace Json

/-- A natural number. -/
def nat (n : Nat) : Json := .number { digits := n }

/-- A character inside quotes. -/
def escape (c : Char) : List Char :=
  if c = '"' then ['\\', '"']
  else if c = '\\' then ['\\', '\\']
  else if c = '\n' then ['\\', 'n']
  else if c = '\r' then ['\\', 'r']
  else if c = '\t' then ['\\', 't']
  else if c.toNat < 32 then
    ['\\', 'u', '0', '0', Digits.hexDigit (c.toNat / 16), Digits.hexDigit (c.toNat % 16)]
  else [c]

/-- A text in quotes. -/
def quote (s : String) : String := "\"" ++ String.ofList (s.toList.flatMap escape) ++ "\""

mutual

/-- A value as text, in pieces. -/
def pieces : Json → List String
  | null => ["null"]
  | bool b => [toString b]
  | number l => [l.text]
  | text s => [quote s]
  | array items => "[" :: itemPieces items ++ ["]"]
  | object fields => "\x7b" :: fieldPieces fields ++ ["\x7d"]

/-- The items of an array, with commas between them. -/
def itemPieces : List Json → List String
  | [] => []
  | [x] => x.pieces
  | x :: y :: rest => x.pieces ++ "," :: itemPieces (y :: rest)

/-- The fields of an object, with commas between them. -/
def fieldPieces : List (String × Json) → List String
  | [] => []
  | [(k, x)] => quote k :: ":" :: x.pieces
  | (k, x) :: y :: rest => quote k :: ":" :: x.pieces ++ "," :: fieldPieces (y :: rest)

end

/-- A value as text. -/
def render (j : Json) : String := String.join j.pieces

/-- The first value under a name. -/
def get? (j : Json) (name : String) : Option Json :=
  match j with
  | object fields => (fields.find? fun f => f.1 = name).map Prod.snd
  | _ => none

/-- The truth value that a value is. -/
def bool? : Json → Option Bool
  | bool b => some b
  | _ => none

/-- The natural number that a value is. -/
def nat? : Json → Option Nat
  | number l => l.nat?
  | _ => none

/-- The natural number up to `most` that a value is. -/
def natUpTo? (most : Nat) (j : Json) : Option Nat :=
  j.nat?.bind fun n => if n ≤ most then some n else none

/-- The text that a value is. -/
def text? : Json → Option String
  | text s => some s
  | _ => none

/-- The items of an array. -/
def items? : Json → Option (List Json)
  | array items => some items
  | _ => none

end Json

end RadioRing
