import RadioRing.Address
import RadioRing.Json.Reader
import RadioRing.Random.Draw
/-!
# Telemetry/Record — one reading of a substation

A `Telemetry` record travels as **exactly five bytes**, of which the last one counts only as zero or
not.  It can be drawn at random, written as a table or in one line, and read from JSON data.
-/

namespace RadioRing

/-- One reading of a substation. -/
structure Telemetry where
  /-- In degrees. -/
  phaseAngle : UInt8
  /-- In kW, on each bus. -/
  busPhase : UInt8
  /-- In MW, on each transmission line. -/
  linePowerFlow : UInt8
  /-- In kW. -/
  load : UInt8
  /-- Whether the component that is watched works. -/
  componentUp : Bool
deriving DecidableEq, Inhabited, Repr

namespace Telemetry

/-- The status of the component as a byte. -/
def statusByte (t : Telemetry) : UInt8 := if t.componentUp then 1 else 0

/-- The record as it travels. -/
def encode (t : Telemetry) : Bytes :=
  [t.phaseAngle, t.busPhase, t.linePowerFlow, t.load, t.statusByte]

/-- Reads five bytes. -/
def decode? : Bytes → Option Telemetry
  | [phaseAngle, busPhase, linePowerFlow, load, status] =>
    some ⟨phaseAngle, busPhase, linePowerFlow, load, status ≠ 0⟩
  | _ => none

theorem decode?_encode (t : Telemetry) : decode? t.encode = some t := by
  obtain ⟨a, b, c, d, up⟩ := t
  cases up <;> rfl

/-- Whether every reading lies where `draw` puts it. -/
def isPlausible (t : Telemetry) : Bool :=
  let within (low high : Nat) (x : UInt8) : Bool := low ≤ x.toNat && x.toNat ≤ high
  within 1 91 t.phaseAngle && within 1 101 t.busPhase && within 1 101 t.linePowerFlow
    && within 1 101 t.load

/-- A plausible record. -/
def draw (s : Random.Stream) : Telemetry × Random.Stream :=
  let (phaseAngle, s) := s.byteBetween 1 91
  let (busPhase, s) := s.byteBetween 1 101
  let (linePowerFlow, s) := s.byteBetween 1 101
  let (load, s) := s.byteBetween 1 101
  let (componentUp, s) := s.coin 0.5
  (⟨phaseAngle.toUInt8, busPhase.toUInt8, linePowerFlow.toUInt8, load.toUInt8, componentUp⟩, s)

/-- Records drawn one after another. -/
def drawMany : Nat → Random.Stream → List Telemetry
  | 0, _ => []
  | n + 1, s =>
    let (t, s) := draw s
    t :: drawMany n s

/-- A byte in base ten. -/
def figure (x : UInt8) : String := Digits.decimal x.toNat

/-- The record as a table with one row for each reading. -/
def table (t : Telemetry) : String :=
  "Substation Parameters,Values,Measurements Units\n"
    ++ "Phase angle," ++ figure t.phaseAngle ++ ",degrees\n"
    ++ "Phase on each bus," ++ figure t.busPhase ++ ",kW\n"
    ++ "Power flow on each transmission line," ++ figure t.linePowerFlow ++ ",MW\n"
    ++ "Substation load," ++ figure t.load ++ ",kW\n"
    ++ "Substation component status," ++ figure t.statusByte ++ ",boolean\n"

/-- The record in one line. -/
def text (t : Telemetry) : String :=
  "angle=" ++ figure t.phaseAngle ++ "deg bus=" ++ figure t.busPhase ++ "kW line="
    ++ figure t.linePowerFlow ++ "MW load=" ++ figure t.load ++ "kW up=" ++ toString t.componentUp

/-- The one value under a name.  **A name that comes twice has none.** -/
def only? (fields : List (String × Json)) (name : String) : Option Json :=
  match fields.filter fun f => f.1 = name with
  | [(_, value)] => some value
  | _ => none

/-- A byte as data. -/
def byte? (j : Json) : Option UInt8 := (j.natUpTo? 255).map Nat.toUInt8

/-- Reads a record from its readings by name, in any order and among others, or from a list of them
in order. -/
def ofJson? : Json → Option Telemetry
  | .object fields => do
    return {
      phaseAngle := ← only? fields "phase_angle" >>= byte?
      busPhase := ← only? fields "bus_phase" >>= byte?
      linePowerFlow := ← only? fields "line_power_flow" >>= byte?
      load := ← only? fields "load" >>= byte?
      componentUp := ← only? fields "component_up" >>= Json.bool? }
  | .array [phaseAngle, busPhase, linePowerFlow, load, componentUp] => do
    return ⟨← byte? phaseAngle, ← byte? busPhase, ← byte? linePowerFlow, ← byte? load,
      ← componentUp.bool?⟩
  | _ => none

/-- The record as data. -/
def json (t : Telemetry) : Json :=
  .object [("phase_angle", .nat t.phaseAngle.toNat), ("bus_phase", .nat t.busPhase.toNat),
    ("line_power_flow", .nat t.linePowerFlow.toNat), ("load", .nat t.load.toNat),
    ("component_up", .bool t.componentUp)]

end Telemetry

end RadioRing
