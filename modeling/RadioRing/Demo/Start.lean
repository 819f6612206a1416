import RadioRing.Demo.Command
import RadioRing.Demo.Options
import RadioRing.Medium.Rules
/-!
# Demo/Start — a demo from its options

The nodes of a demo have the addresses from one upwards, and **all of them are on when it starts**.
After that it does what typed characters ask for (`Demo.type`).
-/

namespace RadioRing

namespace DemoOptions

/-- The addresses of the nodes. -/
def roster (o : DemoOptions) : List Address := (List.range o.nodes).map fun i => ⟨(i + 1).toUInt8⟩

/-- The simulation of the options, every node switched off. -/
def simulation (o : DemoOptions) : Simulation (List DropRule) :=
  let s := Simulation.ofSeed o.roster {} o.seed.toUInt64
  { s with tick := o.tick, medium := s.medium.setLoss (.ofFloat o.loss) }

/-- Switches nodes on, one after the other, up to the first that cannot be. -/
def powerAll {φ : Type} (s : Simulation φ) :
    List Address → Except Overflow (Except SettingsError (Simulation φ))
  | [] => .ok (.ok s)
  | a :: rest =>
    match s.powerOn a with
    | .error e => .error e
    | .ok (.error e, _) => .ok (.error e)
    | .ok (.ok (), s) => powerAll s rest

/-- The demo of the options. -/
def start (o : DemoOptions) :
    Except Overflow (Except SettingsError (Demo (List DropRule))) :=
  match powerAll o.simulation o.roster with
  | .error e => .error e
  | .ok (.error e) => .ok (.error e)
  | .ok (.ok s) => .ok (.ok (.ofSimulation s o.speed))

end DemoOptions

/-- The key that types a character. -/
def KeyPress.ofChar (c : Char) : KeyPress :=
  if c = '\x1b' then { key := .escape }
  else if c = '\x03' then { key := .character 'c', control := true }
  else { key := .character c }

namespace Demo

variable {φ : Type}

/-- Does what typed characters ask for, until the watcher leaves. -/
def type (d : Demo φ) : List Char → Except Overflow (Demo φ)
  | [] => .ok d
  | c :: rest =>
    if d.finished then .ok d
    else
      match (KeyPress.ofChar c).command? with
      | none => d.type rest
      | some command =>
        match d.obey command with
        | .error e => .error e
        | .ok d => d.type rest

end Demo

end RadioRing
