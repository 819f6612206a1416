import RadioRing.AddressMap
import RadioRing.Medium.Loss
import RadioRing.Number.Decimal
import RadioRing.Radio.Basic
import RadioRing.Timestamp
/-!
# Medium — the air that all nodes share

A frame that is transmitted reaches **every attached node but its sender**, each copy on its own
(`Medium.transmit`): a `DropFilter` may reject it, and chance may strike it.  What is left waits in
the receiver's inbox, first in and first out (`Medium.receive`).  The medium keeps the time, too.
-/

namespace RadioRing

/-- One transmission. -/
structure Envelope where
  time : Timestamp
  sender : Address
  dest : Address
  bytes : Bytes
deriving DecidableEq, Inhabited, Repr

/-- The copy of a transmission that reaches an inbox. -/
def Envelope.copy (e : Envelope) : Packet := ⟨some e.sender, e.dest, e.bytes⟩

/-- A rule that rejects copies, and may change with every copy it is asked about. -/
class DropFilter (φ : Type) where
  /-- Whether the copy of a transmission for a receiver is rejected, and the rule for the next. -/
  rejects : φ → Envelope → Address → Bool × φ

/-- The air that all nodes share. -/
structure Medium (φ : Type) where
  /-- The time on the clock of everybody. -/
  now : Timestamp := .zero
  /-- What waits for each attached node. -/
  inboxes : AddressMap (List Packet) := .empty
  loss : Loss := .never
  random : Random.Stream
  filter : Option φ := none
  /-- The transmissions since recording began, the last one first. -/
  recorded : Option (List Envelope) := none

namespace Medium

variable {φ : Type}

/-- A medium with nobody on it. -/
def ofSeed (loss : Loss) (seed : UInt64) : Medium φ := { loss, random := .ofSeed seed }

instance : Inhabited (Medium φ) := ⟨ofSeed .never 0⟩

/-- Moves the clock on. -/
def advance (m : Medium φ) (d : Duration) : Medium φ := { m with now := m.now.after d }

/-- Attaches a node, with an empty inbox. -/
def attach (m : Medium φ) (a : Address) : Medium φ := { m with inboxes := m.inboxes.insert a [] }

/-- Detaches a node; what it has not read is gone. -/
def detach (m : Medium φ) (a : Address) : Medium φ := { m with inboxes := m.inboxes.erase a }

/-- Whether a node is attached. -/
def isAttached (m : Medium φ) (a : Address) : Bool := m.inboxes.contains a

/-- Sets the chance of loss. -/
def setLoss (m : Medium φ) (loss : Loss) : Medium φ := { m with loss }

/-- Sets the rule that rejects copies. -/
def setFilter (m : Medium φ) (filter : φ) : Medium φ := { m with filter := some filter }

/-- Begins to record, without what was recorded before. -/
def record (m : Medium φ) : Medium φ := { m with recorded := some [] }

/-- The transmissions since recording began, in order. -/
def frames (m : Medium φ) : List Envelope := (m.recorded.getD []).reverse

/-- Whether the copy for `receiver` is kept, and the filter and the stream after that.  **Only a
copy that the filter lets pass is left to chance.** -/
def keeps [DropFilter φ] (loss : Loss) (e : Envelope) (receiver : Address) (filter : Option φ)
    (random : Random.Stream) : Bool × Option φ × Random.Stream :=
  if receiver = e.sender then (false, filter, random)
  else
    let (rejected, filter) := match filter with
      | none => (false, none)
      | some f =>
        let (rejected, f) := DropFilter.rejects f e receiver
        (rejected, some f)
    if rejected then (false, filter, random)
    else
      let (struck, random) := loss.strikes random
      (!struck, filter, random)

/-- The copies of a transmission put into the inboxes, in ascending order of their owners. -/
def spread [DropFilter φ] (loss : Loss) (e : Envelope) :
    List Address → Medium φ → Medium φ
  | [], m => m
  | receiver :: rest, m =>
    let (kept, filter, random) := keeps loss e receiver m.filter m.random
    let waiting := (m.inboxes.get? receiver).getD []
    let inboxes := if kept then m.inboxes.insert receiver (waiting ++ [e.copy]) else m.inboxes
    spread loss e rest { m with filter, random, inboxes }

/-- Transmits a frame; only an attached node can. -/
def transmit [DropFilter φ] (m : Medium φ) (sender dest : Address) (bytes : Bytes) :
    Except RadioError Unit × Medium φ :=
  if m.isAttached sender then
    let e : Envelope := ⟨m.now, sender, dest, bytes⟩
    let m := spread m.loss e m.inboxes.keys m
    (.ok (), { m with recorded := m.recorded.map (e :: ·) })
  else (.error .detached, m)

/-- The next packet in an inbox. -/
def receive (m : Medium φ) (a : Address) : Option Packet × Medium φ :=
  match m.inboxes.get? a with
  | some (p :: rest) => (some p, { m with inboxes := m.inboxes.insert a rest })
  | _ => (none, m)

/-- All the packets in an inbox. -/
def drain (m : Medium φ) (a : Address) : List Packet × Medium φ :=
  match m.inboxes.get? a with
  | some packets => (packets, { m with inboxes := m.inboxes.insert a [] })
  | none => ([], m)

/-- Who is attached and how much is lost, in one line. -/
def summary (m : Medium φ) : String :=
  let ids := m.inboxes.keys.map fun a => "NodeId(" ++ Digits.decimal a.toNat ++ ")"
  "Medium \x7b attached: [" ++ ", ".intercalate ids ++ "], loss: "
    ++ Decimal.text .inspected m.loss.value ++ ", .. \x7d"

end Medium

/-- The radio of one node on a medium. -/
structure Antenna (φ : Type) where
  medium : Medium φ
  own : Address

/-- An antenna never waits: the clock stands still during a step. -/
instance {φ : Type} [DropFilter φ] : Radio (Antenna φ) where
  send p dest bytes :=
    let (result, medium) := p.medium.transmit p.own dest bytes
    (result, { p with medium })
  receive p _ :=
    let (packet, medium) := p.medium.receive p.own
    (packet, { p with medium })

end RadioRing
