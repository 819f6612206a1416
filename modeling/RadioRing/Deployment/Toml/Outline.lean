import RadioRing.Deployment.Value
/-!
# Deployment/Toml/Outline — which names a settings file gives to what

A settings file gives names to values and to tables of more names.  An `Outline` says of every
`Place` in it what is there.  A table can be made by a header of its own, by points in a name, or on
the way to another table; **only one made on the way can still get a header**, and points lead
through no table that has one.
-/

namespace RadioRing.Toml

/-- How a table came to be. -/
inductive Origin
  /-- On the way to another table. -/
  | passed
  /-- By points in a name. -/
  | dotted
  /-- By a header. -/
  | headed
deriving DecidableEq, Inhabited, Repr

/-- What is at a place. -/
inductive Entry
  | value (v : Value)
  | table (origin : Origin)
  /-- A list of tables, each with a header. -/
  | tables (count : Nat)
deriving Inhabited, Repr

/-- The names that lead somewhere.  Each has the number of the table that is meant: zero if there is
but one. -/
abbrev Place := List (String × Nat)

/-- What is at each place, last place first. -/
abbrev Outline := List (Place × Entry)

/-- Whether points in a name made this. -/
def Entry.isDotted : Entry → Bool
  | table .dotted => true
  | _ => false

/-- The value of a name, as far as a reader of single values sees it. -/
def Entry.outside : Entry → Value
  | value v => v
  | table _ => .group
  | tables count => .list (List.replicate count .group)

namespace Outline

/-- What is at a place. -/
def get? (o : Outline) (p : Place) : Option Entry := (o.find? fun e => e.1 = p).map (·.2)

/-- The outline with something at a place. -/
def put (o : Outline) (p : Place) (e : Entry) : Outline := (p, e) :: o.filter fun x => x.1 ≠ p

/-- The table behind names, from a place on.  Of a list of tables it is the last one, and a table
that is not there yet is made. -/
def enter? (byPoints : Bool) : List String → Place → Outline → Option (Place × Outline)
  | [], p, o => some (p, o)
  | name :: rest, p, o =>
    let next := p ++ [(name, 0)]
    match o.get? next with
    | none =>
      let origin : Origin := if byPoints then .dotted else .passed
      enter? byPoints rest next (o.put next (.table origin))
    | some (.value _) => none
    | some (.tables n) => enter? byPoints rest (p ++ [(name, n)]) o
    | some (.table origin) =>
      if byPoints ∧ origin = .headed then none else enter? byPoints rest next o

/-- Gives a value to a name with points in the table at a place. -/
def assign? (o : Outline) (table : Place) (path : List String × String) (v : Value) :
    Option Outline := do
  let (p, o) ← enter? true path.1 table o
  guard (path.1.isEmpty ∨ (o.get? p).any Entry.isDotted)
  let here := p ++ [(path.2, 0)]
  guard (o.get? here).isNone
  return o.put here (.value v)

/-- The place of a table with a header. -/
def openTable? (o : Outline) (path : List String × String) : Option (Place × Outline) := do
  let (p, o) ← enter? false path.1 [] o
  let here := p ++ [(path.2, 0)]
  match o.get? here with
  | none | some (.table .passed) => return (here, o.put here (.table .headed))
  | _ => none

/-- The place of one more table in a list of tables. -/
def addTable? (o : Outline) (path : List String × String) : Option (Place × Outline) := do
  let (p, o) ← enter? false path.1 [] o
  let here := p ++ [(path.2, 0)]
  match o.get? here with
  | none => return (p ++ [(path.2, 1)], o.put here (.tables 1))
  | some (.tables n) => return (p ++ [(path.2, n + 1)], o.put here (.tables (n + 1)))
  | _ => none

/-- What the names without points have been given, outside all tables. -/
def assignments (o : Outline) : Assignments :=
  o.reverse.filterMap fun (p, e) =>
    match p with
    | [(name, _)] => some (name, e.outside)
    | _ => none

end Outline

end RadioRing.Toml
