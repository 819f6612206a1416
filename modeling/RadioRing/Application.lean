import RadioRing.Address
/-!
# Application — where payloads come from and go to

An `Application` has one payload for each turn of its node and takes the payloads of the others.
What it hands out is wrapped before it goes on the air; bytes that cannot be unwrapped are
acknowledged like all others and **never delivered**.
-/

namespace RadioRing

/-- The source and the sink of payloads. -/
class Application (α : Type) where
  /-- The payload of the next turn. -/
  nextPayload : α → Bytes × α
  /-- Takes a payload that `sender` put on the air. -/
  deliver : α → Address → Bytes → α
  /-- Makes a payload fit to be sent. -/
  wrap : α → Bytes → Bytes × α := fun a payload => (payload, a)
  /-- Undoes `wrap`, if it can. -/
  unwrap : α → Bytes → Option Bytes × α := fun a wrapped => (some wrapped, a)

end RadioRing
