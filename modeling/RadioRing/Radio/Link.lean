import RadioRing.Message.Codec
import RadioRing.Node.Event
import RadioRing.Radio.Basic
/-!
# Radio/Link — messages over a radio

A `Link` frames the messages of one node and filters what its radio hears: `Link.frame` puts the
sender in front where the radio does not report one, and `Link.read` lets a packet through **exactly
if another address of the roster sent it, to this node or to all, and its bytes are a message.**
-/

namespace RadioRing

/-- A message that a node heard. -/
structure Inbound where
  /-- Who sent it. -/
  sender : Address
  /-- Whom it is for: this node, or all. -/
  dest : Address
  /-- What it says. -/
  message : Message
  /-- Its bytes as they came, without a sender in front; an acknowledgement repeats them. -/
  raw : Bytes
deriving DecidableEq, Inhabited, Repr

/-- What a node needs to know to talk over a radio. -/
structure Link where
  /-- The node's own address. -/
  own : Address
  /-- Whom it listens to. -/
  roster : List Address
  /-- How long it waits for a frame to leave the radio. -/
  sendComplete : Duration
deriving DecidableEq, Inhabited, Repr

namespace Link

/-- A message as it goes on the air, if it fits. -/
def frame (l : Link) (reportsSender : Bool) (capacity : Nat) (m : Message) :
    Except RadioError Bytes :=
  let bytes := if reportsSender then m.encode else l.own.byte :: m.encode
  if capacity < bytes.length then .error (.frameTooLarge bytes.length capacity) else .ok bytes

/-- Who sent a packet, and its bytes without a sender in front. -/
def senderOf (reportsSender : Bool) (p : Packet) : Option (Address × Bytes) :=
  match (if reportsSender then p.sender? else none), p.bytes with
  | some sender, raw => some (sender, raw)
  | none, first :: raw => some (⟨first⟩, raw)
  | none, [] => none

/-- The message in a packet, if it is one for this node. -/
def read (l : Link) (reportsSender : Bool) (p : Packet) : Option Inbound × List Event :=
  let report := Event.heard p.dest p.bytes
  match senderOf reportsSender p with
  | none => (none, [report])
  | some (sender, raw) =>
    if sender = l.own ∨ sender ∉ l.roster then (none, [report, .foreignSender sender])
    else if p.dest ≠ l.own ∧ ¬p.dest.isEveryone then (none, [report])
    else
      match Message.decode raw with
      | .ok message => (some ⟨sender, p.dest, message, raw⟩, [report])
      | .error e => (none, [report, .malformed sender e])

variable {ρ : Type} [Radio ρ]

/-- Sends a message and says whether the radio took it.  A frame that was taken is waited for, and
then the radio listens again. -/
def send (l : Link) (radio : ρ) (dest : Address) (m : Message) : Bool × ρ × List Event :=
  match l.frame (Radio.reportsSender radio) (Radio.capacity radio) m with
  | .error e => (false, radio, [.notSent dest m e.message])
  | .ok bytes =>
    match Radio.send radio dest bytes with
    | (.error e, radio) =>
      (false, radio, [.transmitting dest bytes, .sendFailed dest m e.message])
    | (.ok (), radio) =>
      (true, Radio.listen (Radio.awaitSent radio l.sendComplete), [.transmitting dest bytes])

/-- Waits for one packet and reads it. -/
def await (l : Link) (radio : ρ) (timeout : Duration) : Option Inbound × ρ × List Event :=
  match Radio.receive radio timeout with
  | (none, radio) => (none, radio, [])
  | (some p, radio) =>
    let (inbound, events) := l.read (Radio.reportsSender radio) p
    (inbound, radio, events)

end Link

end RadioRing
