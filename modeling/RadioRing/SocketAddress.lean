import RadioRing.Text.Digits
/-!
# SocketAddress — a host and a TCP port

`SocketAddress.parse?` reads the two written forms of an address, `1.2.3.4:80` and `[::1]:80`, and
`SocketAddress.text` writes them: the long form with **its longest run of zero groups left out**.
The readers take the characters that are left and give back those behind what they read.
-/

namespace RadioRing

/-- A host on a network. -/
inductive Host
  /-- Four bytes. -/
  | short (bytes : List Nat)
  /-- Eight groups of sixteen bits, and the number of a zone. -/
  | long (groups : List Nat) (zone : Nat)
deriving DecidableEq, Inhabited, Repr

/-- A host and a TCP port. -/
structure SocketAddress where
  host : Host
  port : Nat
deriving DecidableEq, Inhabited, Repr

namespace SocketAddress

/-- The characters behind `c`. -/
def skip? (c : Char) : List Char → Option (List Char)
  | x :: rest => if x = c then some rest else none
  | [] => none

/-- The value of a digit in base ten or sixteen. -/
def digit? (base : Nat) (c : Char) : Option Nat :=
  (Digits.hexValue? c).bind fun n => if n < base then some n else none

/-- A number up to `most`, in a base. -/
def number? (base most : Nat) (cs : List Char) : Option (Nat × List Char) :=
  let digits := cs.takeWhile fun c => (digit? base c).isSome
  let value := (digits.filterMap (digit? base)).foldl (fun n d => base * n + d) 0
  if digits.isEmpty ∨ most < value then none else some (value, cs.drop digits.length)

/-- A byte in base ten, of at most three digits and without a zero in front. -/
def byte? (cs : List Char) : Option (Nat × List Char) := do
  let (value, rest) ← number? 10 255 cs
  let width := cs.length - rest.length
  guard (width ≤ 3 ∧ (width = 1 ∨ cs.head? ≠ some '0'))
  return (value, rest)

/-- Four bytes with points between them. -/
def short? (cs : List Char) : Option (List Nat × List Char) := do
  let (a, cs) ← byte? cs
  let (b, cs) ← byte? (← skip? '.' cs)
  let (c, cs) ← byte? (← skip? '.' cs)
  let (d, cs) ← byte? (← skip? '.' cs)
  return ([a, b, c, d], cs)

/-- A group in base sixteen, of at most four digits. -/
def group? (cs : List Char) : Option (Nat × List Char) := do
  let (value, rest) ← number? 16 65535 cs
  guard (cs.length - rest.length ≤ 4)
  return (value, rest)

/-- The characters behind a colon, unless nothing stands in front of it. -/
def between? (first : Bool) (cs : List Char) : Option (List Char) :=
  if first then some cs else skip? ':' cs

/-- At most `room` groups with colons between them; the last two may be written as four bytes, and
the flag says whether they are. -/
def groups (first : Bool) : Nat → List Char → List Nat × Bool × List Char
  | 0, cs => ([], false, cs)
  | room + 1, cs =>
    let bytes := if room = 0 then none else (between? first cs).bind short?
    match bytes with
    | some ([a, b, c, d], rest) => ([256 * a + b, 256 * c + d], true, rest)
    | _ =>
      match (between? first cs).bind group? with
      | some (g, rest) =>
        let (more, asBytes, rest) := groups false room rest
        (g :: more, asBytes, rest)
      | none => ([], false, cs)

/-- Eight groups, some zero groups of which may be left out. -/
def long? (cs : List Char) : Option (List Nat × List Char) := do
  let (front, asBytes, rest) := groups true 8 cs
  if front.length = 8 then return (front, rest)
  guard ¬asBytes
  let rest ← skip? ':' (← skip? ':' rest)
  let (back, _, rest) := groups true (7 - front.length) rest
  return (front ++ List.replicate (8 - front.length - back.length) 0 ++ back, rest)

/-- A TCP port behind a colon. -/
def port? (cs : List Char) : Option (Nat × List Char) := do number? 10 65535 (← skip? ':' cs)

/-- An address of the long form. -/
def longSocket? (cs : List Char) : Option (SocketAddress × List Char) := do
  let (groups, rest) ← long? (← skip? '[' cs)
  let (zone, rest) := ((skip? '%' rest).bind (number? 10 4294967295)).getD (0, rest)
  let (port, rest) ← port? (← skip? ']' rest)
  return (⟨.long groups zone, port⟩, rest)

/-- An address of the short form. -/
def shortSocket? (cs : List Char) : Option (SocketAddress × List Char) := do
  let (bytes, rest) ← short? cs
  let (port, rest) ← port? rest
  return (⟨.short bytes, port⟩, rest)

/-- Reads an address of either form. -/
def parse? (s : String) : Option SocketAddress :=
  match (shortSocket? s.toList).orElse fun _ => longSocket? s.toList with
  | some (address, []) => some address
  | _ => none

/-- Bytes with points between them. -/
def dotted (bytes : List Nat) : String := ".".intercalate (bytes.map Digits.decimal)

/-- Groups with colons between them. -/
def colons (groups : List Nat) : String := ":".intercalate (groups.map Digits.hex)

/-- How many zeros a list starts with. -/
def zeros (groups : List Nat) : Nat := (groups.takeWhile (· = 0)).length

/-- The start and length of the first longest run of zeros, looking from `start` on. -/
def longestZeros (start : Nat) : List Nat → Nat × Nat
  | [] => (start, 0)
  | g :: rest =>
    let here := zeros (g :: rest)
    let (later, length) := longestZeros (start + 1) rest
    if length ≤ here then (start, here) else (later, length)

/-- The text of eight groups. -/
def longText (groups : List Nat) : String :=
  match groups with
  | [0, 0, 0, 0, 0, 65535, x, y] => "::ffff:" ++ dotted [x / 256, x % 256, y / 256, y % 256]
  | _ =>
    let (start, length) := longestZeros 0 groups
    if length ≤ 1 then colons groups
    else colons (groups.take start) ++ "::" ++ colons (groups.drop (start + length))

/-- The text of an address. -/
def text (a : SocketAddress) : String :=
  let host := match a.host with
    | .short bytes => dotted bytes
    | .long groups zone =>
      "[" ++ longText groups ++ (if zone = 0 then "" else "%" ++ Digits.decimal zone) ++ "]"
  host ++ ":" ++ Digits.decimal a.port

end SocketAddress

end RadioRing
