import RadioRing.Application
/-!
# Application/Beacon — a payload that names its node and counts

The payloads of a `Beacon` are its node's address and a 16-bit count of its turns, low byte first;
the count starts over after its highest value.
-/

namespace RadioRing

/-- An application that counts its turns and keeps what it hears. -/
structure Beacon where
  own : Address
  count : UInt16 := 0
  /-- What was delivered, the last payload first. -/
  heard : List (Address × Bytes) := []
deriving DecidableEq, Inhabited, Repr

namespace Beacon

/-- What was delivered, in order. -/
def delivered (b : Beacon) : List (Address × Bytes) := b.heard.reverse

instance : Application Beacon where
  nextPayload b :=
    ([b.own.byte, b.count.toUInt8, (b.count >>> 8).toUInt8], { b with count := b.count + 1 })
  deliver b sender payload := { b with heard := (sender, payload) :: b.heard }

end Beacon

end RadioRing
