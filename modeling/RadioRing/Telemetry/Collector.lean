import RadioRing.Application
import RadioRing.Log
import RadioRing.Telemetry.Record
/-!
# Telemetry/Collector — an application that trades records

A `Collector` puts a drawn record on the air at every turn and keeps the last record it heard.  With
a `Shelf` it stores each record as well; **a shelf that cannot be written to changes nothing but the
log.**
-/

namespace RadioRing

/-- Where records are stored. -/
structure Shelf where
  directory : String
  /-- Whether it can be written to. -/
  writable : Bool := true
  /-- The lines of the index of stored records, the last one first. -/
  index : List String := []
deriving DecidableEq, Inhabited, Repr

namespace Shelf

/-- Where the record of a sender goes at a time. -/
def file (s : Shelf) (sender : Address) (stamp : String) : String :=
  s.directory ++ "/node-" ++ sender.text ++ "-" ++ stamp ++ ".csv"

/-- The shelf with a record of a sender, if it can be written to. -/
def store? (s : Shelf) (sender : Address) (stamp : String) : Option Shelf :=
  if s.writable then
    let line := "[" ++ stamp ++ "] file created: [" ++ s.file sender stamp ++ "] from node "
      ++ sender.text
    some { s with index := line :: s.index }
  else none

end Shelf

/-- An application that trades records. -/
structure Collector where
  random : Random.Stream
  /-- The time that a record stored now is given. -/
  stamp : String
  shelf : Option Shelf := none
  /-- How many records were heard. -/
  received : Nat := 0
  /-- The last one, and who sent it. -/
  last : Option (Address × Telemetry) := none
deriving Inhabited

namespace Collector

open Log

/-- Stores a record, if there is a shelf. -/
def store (c : Collector) (sender : Address) : Collector × List Entry :=
  match c.shelf with
  | none => (c, [])
  | some shelf =>
    match shelf.store? sender c.stamp with
    | some shelf => ({ c with shelf := some shelf }, [])
    | none => (c, [⟨.warn, "failed to store telemetry", [("from", sender.text)]⟩])

/-- Takes a payload.  One that is no record is only remarked on. -/
def take (c : Collector) (sender : Address) (payload : Bytes) : Collector × List Entry :=
  match Telemetry.decode? payload with
  | none =>
    (c, [⟨.warn, "payload is not a telemetry record",
      [("from", sender.text), ("len", Digits.decimal payload.length)]⟩])
  | some record =>
    let heard : Entry :=
      ⟨.info, "telemetry received", [("from", sender.text), ("record", record.text)]⟩
    let c := { c with received := c.received + 1, last := some (sender, record) }
    let (c, entries) := c.store sender
    (c, heard :: entries)

instance : Application Collector where
  nextPayload c :=
    let (record, random) := Telemetry.draw c.random
    (record.encode, { c with random })
  deliver c sender payload := (c.take sender payload).1

end Collector

end RadioRing
