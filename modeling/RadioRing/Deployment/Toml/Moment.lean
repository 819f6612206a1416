import RadioRing.Text.Digits
/-!
# Deployment/Toml/Moment — dates and times of day in a settings file

`Toml.skipMoment?` finds the end of a date such as `1979-05-27`, of a time such as `07:32:00.5`, or
of a date and a time, which may say how far it is from universal time.  What no calendar or clock
shows is refused; **a minute may have a leap second**.
-/

namespace RadioRing.Toml

/-- A number of `width` digits, from `low` to `high`. -/
def figure? (width low high : Nat) (cs : List Char) : Option (Nat × List Char) := do
  let digits := cs.take width
  guard (digits.length = width)
  guard (digits.all Char.isDigit)
  let n ← Digits.natOfDecimalChars? digits
  guard (low ≤ n ∧ n ≤ high)
  return (n, cs.drop width)

/-- The characters behind `c`. -/
def skipChar? (c : Char) : List Char → Option (List Char)
  | x :: rest => if x = c then some rest else none
  | [] => none

/-- How many days a month has. -/
def daysIn (year month : Nat) : Nat :=
  if month = 2 then
    if year % 4 = 0 ∧ (year % 100 ≠ 0 ∨ year % 400 = 0) then 29 else 28
  else if month = 4 ∨ month = 6 ∨ month = 9 ∨ month = 11 then 30
  else 31

/-- The characters behind a date. -/
def skipDate? (cs : List Char) : Option (List Char) := do
  let (year, cs) ← figure? 4 0 9999 cs
  let (month, cs) ← figure? 2 1 12 (← skipChar? '-' cs)
  let (_, cs) ← figure? 2 1 (daysIn year month) (← skipChar? '-' cs)
  return cs

/-- The characters behind an hour and a minute. -/
def skipMinute? (cs : List Char) : Option (List Char) := do
  let (_, cs) ← figure? 2 0 23 cs
  let (_, cs) ← figure? 2 0 59 (← skipChar? ':' cs)
  return cs

/-- The characters behind a part of a second. -/
def skipPart (cs : List Char) : List Char :=
  match cs with
  | '.' :: rest => if (rest.takeWhile Char.isDigit).isEmpty then cs else rest.dropWhile Char.isDigit
  | _ => cs

/-- The characters behind a time of day. -/
def skipTime? (cs : List Char) : Option (List Char) := do
  let cs ← skipMinute? cs
  let (_, cs) ← figure? 2 0 60 (← skipChar? ':' cs)
  return skipPart cs

/-- The characters behind the distance from universal time, if it is there. -/
def skipOffset (cs : List Char) : List Char :=
  match cs with
  | [] => []
  | c :: rest =>
    if c = 'Z' ∨ c = 'z' then rest
    else if c = '+' ∨ c = '-' then (skipMinute? rest).getD cs
    else cs

/-- The characters behind a time of day that follows a date, if it is there. -/
def skipTimeOfDay (cs : List Char) : List Char :=
  match cs with
  | [] => []
  | c :: rest =>
    if c = 'T' ∨ c = 't' ∨ c = ' ' then ((skipTime? rest).map skipOffset).getD cs else cs

/-- The characters behind a date, a time of day or both. -/
def skipMoment? (cs : List Char) : Option (List Char) :=
  match skipDate? cs with
  | some rest => some (skipTimeOfDay rest)
  | none => skipTime? cs

end RadioRing.Toml
