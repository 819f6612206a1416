import RadioRing.Log
import RadioRing.Node.State
/-!
# Node/Event — what a node reports while it works

Every `Event` is one remark of a node on what it hears, sends or decides; `Event.entry` words it for
an observer.  Nothing a node does depends on its events.

The numbers of a remark are natural numbers: the attempts are one more than a count of 32 bits, the
turns a count of 64 bits, and that the word could be too small for them is left out.
-/

namespace RadioRing

/-- A remark of a node. -/
inductive Event
  | heard (dest : Address) (frame : Bytes)
  | foreignSender (sender : Address)
  | malformed (sender : Address) (error : FrameError)
  | transmitting (dest : Address) (frame : Bytes)
  | notSent (dest : Address) (message : Message) (reason : String)
  | sendFailed (dest : Address) (message : Message) (reason : String)
  /-- The request to be admitted has been sent for the `attempt`-th time.  The number that follows
  the largest of 32 bits is a number here; its overflow is left out. -/
  | joinRequested (attempt : Nat)
  | joined (via : Address) (session : Session) (members : Nat) (handsOver : Bool) (round : UInt32)
  | founded (session : Session)
  | admissionAnswered (joiner : Address) (handsOver : Bool)
  | turnStarted (turn : Nat) (round : UInt32)
  | turnElapsed
  | payloadAcknowledged (sender : Address)
  | echoMismatch (sender : Address) (echo : Bytes)
  | turnYielded (other : Address) (held : UInt32)
  | tokenFromElsewhere (sender : Address) (session : Session)
  | staleTurn (sender : Address) (session : Session)
  | outdatedToken (sender : Address) (round held : UInt32)
  | stillAlone
  | heardNetwork (sender : Address)
  | tokenReceived (sender : Address)
  | noPeersLeft
  | tokenOffered (taker : Address) (round : UInt32)
  /-- `taker` has been offered the token `attempts` times.  That this number could be too large
  for 32 bits is left out as well. -/
  | neverAcknowledged (taker : Address) (attempts : Nat)
  | outdatedOffer (sender : Address) (offered : UInt32)
  | handedOff (taker : Address)
  | handOffDropped (sender taker : Address)
  | claimedWithoutPeers
  | presumedDead (holder : Address)
  | waitingForNext (next : Address)
  | nextInLine
  | duplicateRetry (sender : Address)
  | notOpened (sender : Address)
  | busy (sender : Address) (message : Message)
  | peerAdmitted (peer : Address)
  | peerEvicted (peer : Address)
  | moved (old new : State)
  | loopStarting
  | loopStopped (state : State)
deriving DecidableEq, Repr

namespace Event

open Log

/-- A number as the value of a field. -/
def number (n : Nat) : String := Digits.decimal n

/-- The wording of a remark, without the node it comes from. -/
def wording : Event → Level × String × List (String × String)
  | heard dest frame => (.trace, "rx", [("to", dest.text), ("frame", Digits.hexBytes frame)])
  | foreignSender sender => (.debug, "dropping frame from foreign sender", [("from", sender.text)])
  | malformed sender error =>
    (.debug, "dropping malformed frame", [("from", sender.text), ("error", error.message)])
  | transmitting dest frame =>
    (.trace, "tx", [("to", dest.text), ("frame", Digits.hexBytes frame)])
  | notSent dest message reason =>
    (.warn, "not sent", [("to", dest.text), ("message", message.text), ("error", reason)])
  | sendFailed dest message reason =>
    (.warn, "send failed", [("to", dest.text), ("message", message.text), ("error", reason)])
  | joinRequested attempt => (.debug, "join requested", [("attempt", number attempt)])
  | joined via session members handsOver round =>
    (.info, "joined network", [("via", via.text), ("session", session.text),
      ("members", number members), ("hand_off", toString handsOver),
      ("round", number round.toNat)])
  | founded session =>
    (.info, "no network answered, created a new one", [("session", session.text)])
  | admissionAnswered joiner handsOver =>
    (.info, "answered join request", [("joiner", joiner.text), ("hand_off", toString handsOver)])
  | turnStarted turn round =>
    (.info, "turn started", [("turn", number turn), ("round", number round.toNat)])
  | turnElapsed => (.debug, "turn elapsed without acknowledgement", [])
  | payloadAcknowledged sender => (.debug, "payload acknowledged", [("from", sender.text)])
  | echoMismatch sender echo =>
    (.debug, "acknowledgement does not match payload",
      [("from", sender.text), ("echo", Digits.hexBytes echo)])
  | turnYielded other held =>
    (.info, "competing token heard, yielding the turn",
      [("other", other.text), ("held", number held.toNat)])
  | tokenFromElsewhere sender session =>
    (.info, "token from another network", [("from", sender.text), ("session", session.text)])
  | staleTurn sender session =>
    (.debug, "stale turn ignored", [("from", sender.text), ("session", session.text)])
  | outdatedToken sender round held =>
    (.debug, "outdated token",
      [("from", sender.text), ("round", number round.toNat), ("held", number held.toNat)])
  | stillAlone => (.debug, "still alone, searching for a network", [])
  | heardNetwork sender => (.info, "heard another network, rejoining", [("from", sender.text)])
  | tokenReceived sender => (.debug, "token received", [("from", sender.text)])
  | noPeersLeft => (.info, "no eligible peers left, waiting alone", [])
  | tokenOffered taker round =>
    (.debug, "token offered", [("successor", taker.text), ("round", number round.toNat)])
  | neverAcknowledged taker attempts =>
    (.warn, "successor never acknowledged the token",
      [("successor", taker.text), ("attempts", number attempts)])
  | outdatedOffer sender offered =>
    (.debug, "outdated token while handing off",
      [("from", sender.text), ("offered", number offered.toNat)])
  | handedOff taker => (.info, "token handed off", [("successor", taker.text)])
  | handOffDropped sender taker =>
    (.info, "newer token on the air, hand-off dropped",
      [("from", sender.text), ("successor", taker.text)])
  | claimedWithoutPeers => (.info, "watchdog expired with no peers, claiming the token", [])
  | presumedDead holder =>
    (.warn, "watchdog expired, holder presumed dead", [("holder", holder.text)])
  | waitingForNext next => (.debug, "waiting for the next holder", [("next", next.text)])
  | nextInLine => (.info, "next in line, claiming the token", [])
  | duplicateRetry sender =>
    (.debug, "duplicate retry, not delivered again", [("from", sender.text)])
  | notOpened sender => (.debug, "payload could not be opened", [("from", sender.text)])
  | busy sender message =>
    (.debug, "busy, frame dropped", [("from", sender.text), ("message", message.text)])
  | peerAdmitted peer => (.info, "peer admitted", [("peer", peer.text)])
  | peerEvicted peer => (.warn, "peer evicted", [("peer", peer.text)])
  | moved old new => (.debug, "transition", [("from", old.text), ("to", new.text)])
  | loopStarting => (.info, "protocol loop starting", [])
  | loopStopped state => (.info, "protocol loop stopped", [("state", state.text)])

/-- The wording of a remark of `node`. -/
def entry (node : Address) (e : Event) : Entry :=
  let (level, sentence, fields) := e.wording
  ⟨level, sentence, ("node", node.text) :: fields⟩

end Event

end RadioRing
