import RadioRing.Simulation.Run
/-!
# Demo — a simulation that somebody watches

A `Demo` runs a simulation some steps for every new picture, and what it shows is the status of each
node **at the last look**: after a stretch of time and after a node was switched on or off, but not
in between.
-/

namespace RadioRing

/-- A simulation and how it is watched. -/
structure Demo (φ : Type) where
  simulation : Simulation φ
  /-- Steps for each new picture. -/
  speed : Nat
  /-- Whether time stands still. -/
  paused : Bool := false
  /-- Every node of the roster and its status at the last look, if it was on. -/
  views : List (Address × Option Status) := []
  /-- Whether the watcher has left. -/
  finished : Bool := false
deriving Inhabited

namespace Demo

variable {φ : Type}

/-- The highest speed that can be asked for step by step. -/
def topSpeed : Nat := 256

/-- Looks at every node. -/
def look (d : Demo φ) : Demo φ :=
  { d with views := d.simulation.roster.map fun a => (a, d.simulation.status? a) }

/-- A demo of a simulation. -/
def ofSimulation (simulation : Simulation φ) (speed : Nat) : Demo φ :=
  look { simulation, speed }

/-- Twice the steps for each picture, up to the top speed. -/
def faster (d : Demo φ) : Demo φ := { d with speed := min (2 * d.speed) topSpeed }

/-- Half the steps for each picture, at least one. -/
def slower (d : Demo φ) : Demo φ := { d with speed := max (d.speed / 2) 1 }

/-- Stops time or lets it go on. -/
def togglePause (d : Demo φ) : Demo φ := { d with paused := !d.paused }

/-- The watcher leaves. -/
def quit (d : Demo φ) : Demo φ := { d with finished := true }

/-- Switches a node off if it is on, and on if it is off.  A node that cannot be switched on leaves
the views as they are. -/
def togglePower (d : Demo φ) (a : Address) : Except Overflow (Demo φ) :=
  if d.simulation.isPowered a then
    .ok (look { d with simulation := d.simulation.powerOff a })
  else
    match d.simulation.powerOn a with
    | .error e => .error e
    | .ok (.error _, simulation) => .ok { d with simulation }
    | .ok (.ok (), simulation) => .ok (look { d with simulation })

/-- Switches the node at a place of the roster, counted from one; there may be none. -/
def togglePlace (d : Demo φ) (place : Nat) : Except Overflow (Demo φ) :=
  match place with
  | 0 => .ok d
  | i + 1 =>
    match d.simulation.roster[i]? with
    | none => .ok d
    | some a => d.togglePower a

variable [DropFilter φ]

/-- The time of one picture passes, unless it stands still. -/
def advance (d : Demo φ) : Except Overflow (Demo φ) :=
  if d.paused then .ok d.look
  else
    match d.simulation.steps d.speed with
    | .error e => .error e
    | .ok out => .ok (look { d with simulation := out.simulation })

/-- The time of several pictures. -/
def advanceBy (d : Demo φ) : Nat → Except Overflow (Demo φ)
  | 0 => .ok d
  | n + 1 =>
    match d.advance with
    | .error e => .error e
    | .ok d => d.advanceBy n

end Demo

end RadioRing
