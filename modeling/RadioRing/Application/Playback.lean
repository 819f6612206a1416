import RadioRing.Application
/-!
# Application/Playback — payloads from a list

A `Playback` hands out the payloads it was given and one fixed payload ever after, and keeps what is
delivered to it.  With a key it wraps a payload by **combining every byte with the key and adding
the key at the end**.
-/

namespace RadioRing

/-- Payloads to hand out, and payloads taken. -/
structure Playback where
  payloads : List Bytes := []
  key : Option UInt8 := none
  /-- What was delivered, the last payload first. -/
  delivered : List (Address × Bytes) := []

namespace Playback

/-- The payload that follows when the list is used up. -/
def filler : Bytes := [0xaa]

/-- A wrapped payload. -/
def wrapWith : Option UInt8 → Bytes → Bytes
  | none, payload => payload
  | some k, payload => payload.map (· ^^^ k) ++ [k]

/-- The payload that was wrapped, if the last byte is the key. -/
def unwrapWith : Option UInt8 → Bytes → Option Bytes
  | none, wrapped => some wrapped
  | some k, wrapped =>
    if wrapped.getLast? = some k then some (wrapped.dropLast.map (· ^^^ k)) else none

instance : Application Playback where
  nextPayload p :=
    match p.payloads with
    | [] => (filler, p)
    | payload :: rest => (payload, { p with payloads := rest })
  deliver p sender payload := { p with delivered := (sender, payload) :: p.delivered }
  wrap p payload := (wrapWith p.key payload, p)
  unwrap p wrapped := (unwrapWith p.key wrapped, p)

end Playback

end RadioRing
