import RadioRing.Text.Digits
/-!
# Deployment/Toml/Text — lines, texts and names of a settings file

Texts stand in double quotes, with escapes, or in single quotes, without.  Three quotes in a row
start a text that may run over several lines, in which **every end of a line reads as a line feed**.
A name stands in quotes or consists of letters, digits, hyphens and underscores.
-/

namespace RadioRing.Toml

/-- Space inside a line. -/
def isSpace (c : Char) : Bool := c = ' ' || c = '\t'

/-- The characters behind spaces. -/
def skipSpace (cs : List Char) : List Char := cs.dropWhile isSpace

/-- Whether a character may stand in a comment. -/
def inComment (c : Char) : Bool := c = '\t' || (32 ≤ c.toNat && c.toNat ≠ 127)

/-- The characters behind spaces and a comment. -/
def skipComment (cs : List Char) : List Char :=
  match skipSpace cs with
  | '#' :: rest => rest.dropWhile inComment
  | rest => rest

/-- The characters behind a line feed, with or without a carriage return in front. -/
def skipFeed? : List Char → Option (List Char)
  | '\n' :: rest => some rest
  | '\r' :: '\n' :: rest => some rest
  | _ => none

/-- The characters behind the end of a line; the end of the file ends a line, too. -/
def skipLineEnd? (cs : List Char) : Option (List Char) :=
  match skipComment cs with
  | [] => some []
  | rest => skipFeed? rest

/-- The characters behind line ends and what `skip` leaves out in front of each of them. -/
def skipFeeds (skip : List Char → List Char) : Nat → List Char → List Char
  | 0, cs => cs
  | fuel + 1, cs =>
    match skipFeed? (skip cs) with
    | some rest => skipFeeds skip fuel rest
    | none => skip cs

/-- The characters behind spaces, comments and line ends. -/
def skipLines (cs : List Char) : List Char := skipFeeds skipComment cs.length cs

/-- The characters behind the end of a line and the space in front of the next character, if
nothing but space precedes that end. -/
def skipJoin? (cs : List Char) : Option (List Char) :=
  (skipFeed? (skipSpace cs)).map fun rest => skipFeeds skipSpace rest.length rest

/-- A character from the digits of its code. -/
def code? (width : Nat) (cs : List Char) : Option (Char × List Char) := do
  let digits := (cs.take width).filterMap Digits.hexValue?
  guard (digits.length = width)
  let n := digits.foldl (fun n d => 16 * n + d) 0
  guard (n < 0xD800 ∨ (0xDFFF < n ∧ n < 0x110000))
  return (Char.ofNat n, cs.drop width)

/-- The character of an escape, from the character behind the backslash on. -/
def escape? : List Char → Option (Char × List Char)
  | 'b' :: cs => some ('\x08', cs)
  | 't' :: cs => some ('\t', cs)
  | 'n' :: cs => some ('\n', cs)
  | 'f' :: cs => some ('\x0c', cs)
  | 'r' :: cs => some ('\r', cs)
  | '"' :: cs => some ('"', cs)
  | '\\' :: cs => some ('\\', cs)
  | 'u' :: cs => code? 4 cs
  | 'U' :: cs => code? 8 cs
  | _ => none

/-- The rest of a text in double quotes, of which `done` is read, last character first. -/
def basicText? : Nat → List Char → List Char → Option (String × List Char)
  | 0, _, _ => none
  | _ + 1, _, [] => none
  | fuel + 1, done, c :: rest =>
    if c = '"' then some (String.ofList done.reverse, rest)
    else if c = '\\' then
      match escape? rest with
      | some (x, rest) => basicText? fuel (x :: done) rest
      | none => none
    else if inComment c then basicText? fuel (c :: done) rest
    else none

/-- The rest of a text in single quotes, which has no escapes. -/
def literalText? (cs : List Char) : Option (String × List Char) :=
  let inside := cs.takeWhile fun c => c ≠ '\'' && inComment c
  match cs.drop inside.length with
  | '\'' :: rest => some (String.ofList inside, rest)
  | _ => none

/-- The rest of a text between three quotes, of which `done` is read, last character first.  One or
two quotes may stand anywhere in it, **also in front of the three that end it**.  In double quotes,
a backslash at the end of a line takes the space up to the next character away. -/
def longText? (quote : Char) : Nat → List Char → List Char → Option (String × List Char)
  | 0, _, _ => none
  | _ + 1, _, [] => none
  | fuel + 1, done, c :: rest =>
    if c = quote then
      let more := (rest.takeWhile (· = quote)).length
      if more < 2 then longText? quote fuel (c :: done) rest
      else
        let kept := min (more - 2) 2
        some (String.ofList (List.replicate kept quote ++ done).reverse, rest.drop (kept + 2))
    else if c = '\\' ∧ quote = '"' then
      match skipJoin? rest with
      | some rest => longText? quote fuel done rest
      | none =>
        match escape? rest with
        | some (x, rest) => longText? quote fuel (x :: done) rest
        | none => none
    else
      match skipFeed? (c :: rest) with
      | some rest => longText? quote fuel ('\n' :: done) rest
      | none => if inComment c then longText? quote fuel (c :: done) rest else none

/-- The text behind three quotes.  The end of a line right behind them does not belong to it. -/
def longTextBehind? (quote : Char) (cs : List Char) : Option (String × List Char) :=
  let cs := (skipFeed? cs).getD cs
  longText? quote (cs.length + 1) [] cs

/-- A text in quotes on one line. -/
def quoted? : List Char → Option (String × List Char)
  | '"' :: rest => basicText? (rest.length + 1) [] rest
  | '\'' :: rest => literalText? rest
  | _ => none

/-- A text in quotes. -/
def text? : List Char → Option (String × List Char)
  | '"' :: '"' :: '"' :: rest => longTextBehind? '"' rest
  | '\'' :: '\'' :: '\'' :: rest => longTextBehind? '\'' rest
  | cs => quoted? cs

/-- Whether a character may stand in a name without quotes. -/
def isBare (c : Char) : Bool := c.isAlphanum || c = '_' || c = '-'

/-- A name. -/
def name? (cs : List Char) : Option (String × List Char) :=
  let word := cs.takeWhile isBare
  if word.isEmpty then quoted? cs else some (String.ofList word, cs.drop word.length)

/-- The most levels of lists, of groups and of names. -/
def deepest : Nat := 79

/-- Names with points between them, of which `done` are read, last name first, with the spaces
around each of them. -/
def names? : Nat → List String → List Char → Option (List String × List Char)
  | 0, _, _ => none
  | fuel + 1, done, cs =>
    match name? (skipSpace cs) with
    | none => none
    | some (name, rest) =>
      match skipSpace rest with
      | '.' :: rest => names? fuel (name :: done) rest
      | rest => some ((name :: done).reverse, rest)

/-- Where a name with points leads: the names in front of the last one, and that one. -/
def path? (cs : List Char) : Option ((List String × String) × List Char) := do
  let (names, rest) ← names? deepest [] cs
  return ((names.dropLast, ← names.getLast?), rest)

end RadioRing.Toml
