import RadioRing.Application.Beacon
import RadioRing.Medium.Basic
import RadioRing.Node.Step
/-!
# Simulation — many nodes, one medium and one clock

A `Simulation` steps every node that is switched on once, in ascending order of their addresses,
and then moves the clock on by one tick.  **Its seed determines everything**: the medium takes one
number of the seed stream, and every attempt to switch a node on takes one more, also one that fails.
-/

namespace RadioRing

/-- Nodes that share a medium and a clock. -/
structure Simulation (φ : Type) where
  roster : List Address
  timings : Timings
  medium : Medium φ
  /-- How far the clock moves in a step. -/
  tick : Duration := .ofMillis 50
  /-- Where the seeds of the nodes come from. -/
  seeds : Random.Stream
  /-- The nodes that are switched on. -/
  stations : AddressMap (Station Beacon) := .empty

/-- A remark and the node it comes from. -/
abbrev Remark := Address × Event

namespace Simulation

variable {φ : Type}

/-- A simulation with every node switched off. -/
def ofSeed (roster : List Address) (timings : Timings) (seed : UInt64) : Simulation φ :=
  let (mediumSeed, seeds) := (Random.Stream.ofSeed seed).nextWide
  { roster, timings, medium := .ofSeed .never mediumSeed.toUInt64, seeds }

instance : Inhabited (Simulation φ) := ⟨ofSeed [] {} 0⟩

/-- The time on the clock. -/
def now (s : Simulation φ) : Timestamp := s.medium.now

/-- What a node is told when it is switched on. -/
def settingsOf (s : Simulation φ) (a : Address) : Settings :=
  { node := a, roster := s.roster, timings := s.timings }

/-- Switches a node on, or off and on again; it starts knowing nothing. -/
def powerOn (s : Simulation φ) (a : Address) :
    Except Overflow (Except SettingsError Unit × Simulation φ) :=
  let (seed, seeds) := s.seeds.nextWide
  let s := { s with seeds }
  match Station.boot (s.settingsOf a) seed.toUInt64 (Beacon.mk a 0 []) with
  | .error e => .error e
  | .ok (.error e) => .ok (.error e, s)
  | .ok (.ok station) =>
    .ok (.ok (),
      { s with medium := s.medium.attach a, stations := s.stations.insert a station })

/-- Switches a node off; all it knew is gone. -/
def powerOff (s : Simulation φ) (a : Address) : Simulation φ :=
  { s with medium := s.medium.detach a, stations := s.stations.erase a }

/-- Whether a node is switched on. -/
def isPowered (s : Simulation φ) (a : Address) : Bool := s.stations.contains a

/-- The status of a node that is switched on. -/
def status? (s : Simulation φ) (a : Address) : Option Status :=
  (s.stations.get? a).map fun station => station.node.status

/-- The status of every node that is switched on, in ascending order of their addresses. -/
def statuses (s : Simulation φ) : List Status :=
  s.stations.entries.map fun entry => entry.2.node.status

/-- The nodes that hold the token, or have offered it and not yet let go. -/
def masters (s : Simulation φ) : List Address :=
  s.stations.entries.filterMap fun entry => if entry.2.node.master then some entry.1 else none

variable [DropFilter φ]

/-- One step of one node. -/
def stepNode (s : Simulation φ) (a : Address) : Except Overflow (Simulation φ × List Remark) :=
  match s.stations.get? a with
  | none => .ok (s, [])
  | some station =>
    match station.step (Antenna.mk s.medium a) (.still s.now) with
    | .error e => .error e
    | .ok (station, antenna, events) =>
      .ok ({ s with medium := antenna.medium, stations := s.stations.insert a station },
        events.map fun e => (a, e))

/-- One step of each of some nodes, in order. -/
def stepNodes (s : Simulation φ) : List Address → Except Overflow (Simulation φ × List Remark)
  | [] => .ok (s, [])
  | a :: rest => do
    let (s, remarks) ← s.stepNode a
    let (s, more) ← s.stepNodes rest
    return (s, remarks ++ more)

/-- One step of every node that is switched on, and one tick of the clock. -/
def step (s : Simulation φ) : Except Overflow (Simulation φ × List Remark) := do
  let (s, remarks) ← s.stepNodes s.stations.keys
  return ({ s with medium := s.medium.advance s.tick }, remarks)

end Simulation

end RadioRing
