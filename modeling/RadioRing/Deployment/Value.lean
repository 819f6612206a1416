import RadioRing.Json.Reader
import RadioRing.Number.Binary64
/-!
# Deployment/Value — values of a settings file

A settings file assigns a `Value` to each of its keys.  Data in JSON form can be read as such an
assignment too: **a number without point and exponent is an integer** if it fits 64 bits.
-/

namespace RadioRing

/-- A value of a settings file. -/
inductive Value
  | integer (n : Int)
  | real (x : Float)
  | text (s : String)
  | flag (b : Bool)
  | list (items : List Value)
  /-- Stated to be absent. -/
  | nothing
  /-- A date, a time of day or both. -/
  | moment
  /-- A value with keys of its own. -/
  | group
deriving Inhabited, Repr

/-- The assignments of a settings file, each key once. -/
abbrev Assignments := List (String × Value)

namespace Value

/-- The number that a literal stands for. -/
def ofLiteral (l : Literal) : Value :=
  let n : Int := if l.negative then -(l.digits : Int) else l.digits
  let isZero := l.negative && l.digits = 0
  if l.integral ∧ ¬isZero ∧ -9223372036854775808 ≤ n ∧ n ≤ 18446744073709551615 then .integer n
  else .real (Binary64.ofDecimal l.negative l.digits l.exponent)

mutual

/-- A value from data in JSON form. -/
def ofJson : Json → Value
  | .null => .nothing
  | .bool b => .flag b
  | .number l => ofLiteral l
  | .text s => .text s
  | .array items => .list (ofItems items)
  | .object _ => .group

/-- The values of an array. -/
def ofItems : List Json → List Value
  | [] => []
  | x :: rest => ofJson x :: ofItems rest

end

/-- The natural number up to `most` that a value is. -/
def nat? (most : Nat) : Value → Option Nat
  | integer n => if 0 ≤ n ∧ n ≤ most then some n.toNat else none
  | _ => none

/-- The number that a value is.  An integer is one. -/
def float? : Value → Option Float
  | integer n => some (Binary64.ofDecimal (n < 0) n.natAbs 0)
  | real x => some x
  | _ => none

/-- The text that a value is. -/
def text? : Value → Option String
  | text s => some s
  | _ => none

/-- The items of a list. -/
def items? : Value → Option (List Value)
  | list items => some items
  | _ => none

end Value

end RadioRing
