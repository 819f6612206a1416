import RadioRing.Address
import RadioRing.Duration
import RadioRing.Text.Digits
/-!
# Radio — an unreliable packet link

A `Radio` sends a frame to one address or to all, and waits for a `Packet`.  It never repeats
anything by itself: a refused frame is reported once, as a `RadioError`, and the timers of the node
do the rest.
-/

namespace RadioRing

/-- A packet as the radio hands it over. -/
structure Packet where
  /-- Who sent it, if the radio can tell. -/
  sender? : Option Address
  /-- Whom it is for. -/
  dest : Address
  /-- What it holds. -/
  bytes : Bytes
deriving DecidableEq, Inhabited, Repr

/-- Why a frame was not sent. -/
inductive RadioError
  /-- The frame does not fit into one packet. -/
  | frameTooLarge (length most : Nat)
  /-- The radio is not on the air. -/
  | detached
  /-- The device failed for a reason of its own. -/
  | failed (reason : String)
deriving DecidableEq, Repr

/-- The text of an error. -/
def RadioError.message : RadioError → String
  | frameTooLarge length most =>
    "frame of " ++ Digits.decimal length ++ " bytes exceeds mtu of " ++ Digits.decimal most
  | detached => "radio detached"
  | failed reason => "radio i/o error: " ++ reason

/-- An unreliable packet link. -/
class Radio (ρ : Type) where
  /-- The longest frame that fits into one packet. -/
  capacity : ρ → Nat := fun _ => 251
  /-- Whether packets come with their sender.  If they do not, every frame starts with it. -/
  reportsSender : ρ → Bool := fun _ => true
  /-- Sends a frame to an address, or says why not. -/
  send : ρ → Address → Bytes → Except RadioError Unit × ρ
  /-- Waits for a packet, at most as long as it is told. -/
  receive : ρ → Duration → Option Packet × ρ
  /-- Waits until the last frame has left the antenna, at most as long as it is told. -/
  awaitSent : ρ → Duration → ρ := fun r _ => r
  /-- Goes back to listening. -/
  listen : ρ → ρ := id

end RadioRing
