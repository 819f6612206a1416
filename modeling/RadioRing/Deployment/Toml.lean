import RadioRing.Deployment.Toml.Moment
import RadioRing.Deployment.Toml.Number
import RadioRing.Deployment.Toml.Outline
import RadioRing.Deployment.Toml.Text
/-!
# Deployment/Toml — reading a settings file

A settings file has one `name = value` to a line, or a header that says in which table the names
behind it are; a number sign starts a comment.  Values are numbers, texts, truth values, moments,
lists that may run over several lines, and groups of assignments on one line.  **A name that is
given twice makes the file unreadable.**
-/

namespace RadioRing.Toml

/-- A value without quotes and brackets. -/
def bareValue? (cs : List Char) : Option (Value × List Char) :=
  match skipMoment? cs with
  | some rest => some (.moment, rest)
  | none =>
    let word := cs.takeWhile fun c => isBare c || c = '+' || c = '.'
    let value :=
      if word = ['t', 'r', 'u', 'e'] then some (.flag true)
      else if word = ['f', 'a', 'l', 's', 'e'] then some (.flag false)
      else
        match integer? word with
        | some n => some (.integer n)
        | none => (fraction? word).map .real
    value.map fun v => (v, cs.drop word.length)

mutual

/-- A value, in which lists and groups stand inside one another at most `depth` times. -/
def value? : Nat → Nat → List Char → Option (Value × List Char)
  | 0, _, _ => none
  | fuel + 1, depth, cs =>
    match cs, depth with
    | '[' :: _, 0 => none
    | '\x7b' :: _, 0 => none
    | '[' :: rest, depth + 1 => items? fuel depth [] (skipLines rest)
    | '\x7b' :: rest, depth + 1 =>
      match skipSpace rest with
      | '\x7d' :: rest => some (.group, rest)
      | rest => fields? fuel depth [] rest
    | '"' :: _, _ => (text? cs).map fun (s, rest) => (.text s, rest)
    | '\'' :: _, _ => (text? cs).map fun (s, rest) => (.text s, rest)
    | _, _ => bareValue? cs

/-- The rest of a list, of which `done` is read, last item first. -/
def items? : Nat → Nat → List Value → List Char → Option (Value × List Char)
  | 0, _, _, _ => none
  | fuel + 1, depth, done, cs =>
    match cs with
    | ']' :: rest => some (.list done.reverse, rest)
    | cs =>
      match value? fuel depth cs with
      | none => none
      | some (item, rest) =>
        match skipLines rest with
        | ',' :: rest => items? fuel depth (item :: done) (skipLines rest)
        | ']' :: rest => some (.list (item :: done).reverse, rest)
        | _ => none

/-- The rest of a group, in which `done` has been read. -/
def fields? : Nat → Nat → Outline → List Char → Option (Value × List Char)
  | 0, _, _, _ => none
  | fuel + 1, depth, done, cs =>
    match path? cs with
    | some (path, '=' :: rest) =>
      match value? fuel depth (skipSpace rest) with
      | none => none
      | some (v, rest) =>
        match done.assign? [] path v, skipSpace rest with
        | some done, ',' :: rest => fields? fuel depth done rest
        | some _, '\x7d' :: rest => some (.group, rest)
        | _, _ => none
    | _ => none

end

/-- A line that is not empty, with the end of it: what it makes of an outline, and the place of the
table that the next lines belong to. -/
def line? (table : Place) (o : Outline) (cs : List Char) :
    Option ((Place × Outline) × List Char) := do
  match cs with
  | '[' :: '[' :: rest =>
    let (path, rest) ← path? rest
    let rest ← skipChar? ']' rest >>= skipChar? ']'
    return (← o.addTable? path, ← skipLineEnd? rest)
  | '[' :: rest =>
    let (path, rest) ← path? rest
    let rest ← skipChar? ']' rest
    return (← o.openTable? path, ← skipLineEnd? rest)
  | cs =>
    let (path, rest) ← path? cs
    let rest := skipSpace (← skipChar? '=' rest)
    let (v, rest) ← value? (rest.length + 1) deepest rest
    return ((table, ← o.assign? table path v), ← skipLineEnd? rest)

/-- The outline of the lines that are left, after those that made `o`. -/
def lines? : Nat → Place → Outline → List Char → Option Outline
  | 0, _, _, _ => none
  | fuel + 1, table, o, cs =>
    match skipLines cs with
    | [] => some o
    | cs =>
      match line? table o cs with
      | none => none
      | some ((table, o), rest) => lines? fuel table o rest

/-- The characters behind a byte order mark. -/
def skipMark : List Char → List Char
  | '\ufeff' :: rest => rest
  | cs => cs

/-- Reads a settings file. -/
def parse? (s : String) : Option Assignments :=
  let cs := skipMark s.toList
  (lines? (cs.length + 1) [] [] cs).map Outline.assignments

end RadioRing.Toml
