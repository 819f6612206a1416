import RadioRing.Demo.Basic
/-!
# Demo/Command — what a watcher can ask for

A key stands for at most one `Command`.  **`q` and Escape leave whatever is held down with them, and
so does `c` with Control**; the digits from one to six switch the nodes at these places.
-/

namespace RadioRing

/-- A key. -/
inductive Key
  | character (c : Char)
  | escape
  /-- A key that no command uses. -/
  | other
deriving DecidableEq, Repr

/-- A key, and whether Control is held down with it. -/
structure KeyPress where
  key : Key
  control : Bool := false
deriving DecidableEq, Repr

/-- What a watcher can ask for. -/
inductive Command
  | quit
  | pause
  | faster
  | slower
  /-- Switch the node at a place of the roster. -/
  | power (place : Nat)
deriving DecidableEq, Repr

/-- The command of a character. -/
def Command.ofChar? (c : Char) : Option Command :=
  if c = 'q' then some .quit
  else if c = ' ' then some .pause
  else if c = '+' then some .faster
  else if c = '-' then some .slower
  else if '1' ≤ c ∧ c ≤ '6' then some (.power (c.toNat - '0'.toNat))
  else none

/-- The command of a key, if it has one. -/
def KeyPress.command? (k : KeyPress) : Option Command :=
  match k.key with
  | .escape => some .quit
  | .other => none
  | .character c => if c = 'c' ∧ k.control then some .quit else Command.ofChar? c

/-- Does what the watcher asks for. -/
def Demo.obey {φ : Type} (d : Demo φ) : Command → Except Overflow (Demo φ)
  | .quit => .ok d.quit
  | .pause => .ok d.togglePause
  | .faster => .ok d.faster
  | .slower => .ok d.slower
  | .power place => d.togglePlace place

end RadioRing
