import RadioRing.Json.Basic
/-!
# Json/Reader — from text to data

`Json.parse?` reads one value with nothing but white space around it.  Every reader takes the
characters that are left and gives back those behind what it read; the `fuel` of the recursive ones
is above twice the length of the text, since **of two calls in a row one uses a character up**.

An escape may name half of a pair that has no other half, which is no character.  **Only the names
of the outermost object must be free of halves**; in any other text a half reads as U+FFFD.
-/

namespace RadioRing.Json

/-- White space between tokens. -/
def isBlank (c : Char) : Bool := c = ' ' || c = '\t' || c = '\n' || c = '\r'

/-- The characters behind white space. -/
def skipBlank (cs : List Char) : List Char := cs.dropWhile isBlank

/-- The characters behind `word`. -/
def skipWord? : List Char → List Char → Option (List Char)
  | [], cs => some cs
  | w :: ws, c :: cs => if w = c then skipWord? ws cs else none
  | _ :: _, [] => none

/-- Four base-sixteen digits. -/
def readUnit? : List Char → Option (Nat × List Char)
  | a :: b :: c :: d :: rest => do
    let a ← Digits.hexValue? a
    let b ← Digits.hexValue? b
    let c ← Digits.hexValue? c
    let d ← Digits.hexValue? d
    return (4096 * a + 256 * b + 16 * c + d, rest)
  | _ => none

/-- An escape for the second half of a pair. -/
def readSecondHalf? (cs : List Char) : Option (Nat × List Char) := do
  let rest ← skipWord? ['\\', 'u'] cs
  let (half, rest) ← readUnit? rest
  guard (0xDC00 ≤ half ∧ half ≤ 0xDFFF)
  return (half, rest)

/-- A character written by its code; one beyond the first plane takes two units.  Without its pair,
a half is refused if `strict`. -/
def readCode? (strict : Bool) (cs : List Char) : Option (Char × List Char) :=
  match readUnit? cs with
  | none => none
  | some (first, rest) =>
    if first < 0xD800 ∨ 0xDFFF < first then some (Char.ofNat first, rest)
    else
      match if first ≤ 0xDBFF then readSecondHalf? rest else none with
      | some (second, rest) =>
        some (Char.ofNat (0x10000 + 1024 * (first - 0xD800) + (second - 0xDC00)), rest)
      | none => if strict then none else some ('\ufffd', rest)

/-- The character that an escape of one letter stands for. -/
def shortEscape? (c : Char) : Option Char :=
  if c = '"' ∨ c = '\\' ∨ c = '/' then some c
  else if c = 'b' then some '\x08'
  else if c = 'f' then some '\x0c'
  else if c = 'n' then some '\n'
  else if c = 'r' then some '\r'
  else if c = 't' then some '\t'
  else none

/-- The rest of a quoted text, of which `done` is read, last character first. -/
def readQuoted? (strict : Bool) : Nat → List Char → List Char → Option (String × List Char)
  | 0, _, _ => none
  | _ + 1, _, [] => none
  | fuel + 1, done, c :: rest =>
    if c = '"' then some (String.ofList done.reverse, rest)
    else if c.toNat < 32 then none
    else if c = '\\' then
      match rest with
      | [] => none
      | e :: rest =>
        if e = 'u' then
          match readCode? strict rest with
          | some (x, rest) => readQuoted? strict fuel (x :: done) rest
          | none => none
        else
          match shortEscape? e with
          | some x => readQuoted? strict fuel (x :: done) rest
          | none => none
    else readQuoted? strict fuel (c :: done) rest

/-- A run of digits and what follows it. -/
def spanDigits (cs : List Char) : List Char × List Char := cs.span Char.isDigit

/-- The digits behind a point, if there is a point. -/
def readFraction? : List Char → Option (Option (List Char) × List Char)
  | '.' :: rest =>
    let (part, rest) := spanDigits rest
    if part.isEmpty then none else some (some part, rest)
  | cs => some (none, cs)

/-- A power of ten, if there is one. -/
def readExponent? : List Char → Option (Option Int × List Char)
  | [] => some (none, [])
  | c :: rest =>
    if c = 'e' ∨ c = 'E' then
      let (negative, rest) := match rest with
        | '-' :: rest => (true, rest)
        | '+' :: rest => (false, rest)
        | _ => (false, rest)
      let (part, rest) := spanDigits rest
      match Digits.natOfDecimalChars? part with
      | some n => some (some (if negative then -(n : Int) else n), rest)
      | none => none
    else some (none, c :: rest)

/-- A number.  Its integer part has no zero in front. -/
def readNumber? (cs : List Char) : Option (Literal × List Char) := do
  let (negative, cs) := match cs with
    | '-' :: rest => (true, rest)
    | _ => (false, cs)
  let (whole, rest) := spanDigits cs
  guard (whole.length = 1 ∨ whole.head? ≠ some '0')
  let (part, rest) ← readFraction? rest
  let (power, rest) ← readExponent? rest
  let behind := part.getD []
  guard (whole ≠ [])
  let digits ← Digits.natOfDecimalChars? (whole ++ behind)
  return ({ negative, digits, exponent := power.getD 0 - behind.length,
            integral := part.isNone && power.isNone }, rest)

mutual

/-- A value, white space in front of it included.  `outer` says that nothing is around it. -/
def readValue? (outer : Bool) : Nat → List Char → Option (Json × List Char)
  | 0, _ => none
  | fuel + 1, cs =>
    match skipBlank cs with
    | [] => none
    | c :: rest =>
      if c = '"' then (readQuoted? false fuel [] rest).map fun (s, rest) => (.text s, rest)
      else if c = '[' then
        match skipBlank rest with
        | ']' :: rest => some (.array [], rest)
        | rest => readItems? fuel [] rest
      else if c = '\x7b' then
        match skipBlank rest with
        | '\x7d' :: rest => some (.object [], rest)
        | rest => readFields? outer fuel [] rest
      else if c = 'n' then (skipWord? ['u', 'l', 'l'] rest).map (Json.null, ·)
      else if c = 't' then (skipWord? ['r', 'u', 'e'] rest).map (Json.bool true, ·)
      else if c = 'f' then (skipWord? ['a', 'l', 's', 'e'] rest).map (Json.bool false, ·)
      else (readNumber? (c :: rest)).map fun (l, rest) => (.number l, rest)

/-- The rest of an array, of which `done` is read, last item first. -/
def readItems? : Nat → List Json → List Char → Option (Json × List Char)
  | 0, _, _ => none
  | fuel + 1, done, cs =>
    match readValue? false fuel cs with
    | none => none
    | some (item, rest) =>
      match skipBlank rest with
      | ',' :: rest => readItems? fuel (item :: done) rest
      | ']' :: rest => some (.array (item :: done).reverse, rest)
      | _ => none

/-- The rest of an object, of which `done` is read, last field first. -/
def readFields? (strict : Bool) :
    Nat → List (String × Json) → List Char → Option (Json × List Char)
  | 0, _, _ => none
  | fuel + 1, done, cs =>
    match skipBlank cs with
    | '"' :: rest =>
      match readQuoted? strict fuel [] rest with
      | none => none
      | some (name, rest) =>
        match skipBlank rest with
        | ':' :: rest =>
          match readValue? false fuel rest with
          | none => none
          | some (value, rest) =>
            match skipBlank rest with
            | ',' :: rest => readFields? strict fuel ((name, value) :: done) rest
            | '\x7d' :: rest => some (.object ((name, value) :: done).reverse, rest)
            | _ => none
        | _ => none
    | _ => none

end

/-- Reads a text that holds one value and nothing else. -/
def parse? (s : String) : Option Json :=
  let cs := s.toList
  match readValue? true (2 * cs.length + 1) cs with
  | some (value, rest) => if (skipBlank rest).isEmpty then some value else none
  | none => none

end RadioRing.Json
