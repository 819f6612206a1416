import RadioRing.Node.Admission
import RadioRing.Node.Floor
/-!
# Node/HandOff — how the token moves on

The holder offers the token to its successor and repeats the offer until the successor shows that it
has it.  A successor that never does is evicted, and **the next one is offered the same round**.  A
token newer than the offered one ends the hand-off at once.
-/

namespace RadioRing.Node

variable {α : Type}

/-- The round of the offer that waits, if there is one. -/
def offeredRound? (n : Node) : Option UInt32 :=
  match n.offer with
  | some (.turn _ _ round) => some round
  | _ => none

/-- Offers the token to the next eligible node; without one, the node is alone. -/
def offerToken (n : Node) (app : α) (start : Timestamp) : Reaction α :=
  match n.session with
  | none => { node := n.leave, app, transition := .goTo .requesting }
  | some session =>
    match n.table.successor n.own with
    | none =>
      { node := { n with master := false, offer := none }
        app
        before := [.noPeersLeft]
        transition := .goTo .alone }
    | some taker =>
      -- After an eviction the round of the first offer still stands.
      let round := n.offeredRound?.getD n.rounds.next
      let offer := Message.turn taker session round
      { node := { n with
          rounds := n.rounds.observe round
          offer := some offer
          offerRetries := 0
          timers.offerRetry := .after start n.settings.timings.offerRetry }
        app
        emission := some (.toAll offer)
        after := [.tokenOffered taker round]
        transition := .goTo (.awaitingTaker taker) }

/-- What a message says about the offer that waits. -/
inductive Verdict
  /-- Nothing. -/
  | pending
  /-- The taker has the token. -/
  | acknowledged
  /-- An old offer named this node; its sender waits in vain. -/
  | outdated
  /-- A newer token is on the air. -/
  | superseded
deriving DecidableEq, Repr

/-- What `m` says about the offer to `taker`. -/
def judge (n : Node) (taker : Address) (m : Inbound) : Verdict :=
  let offered := n.offeredRound?.getD n.rounds.held
  match m.message with
  | .ack echo =>
    if m.sender = taker ∧ n.offer.map Message.encode = some echo then .acknowledged else .pending
  | .data round _ | .retry round _ =>
    -- A taker that speaks has the token.
    if round < offered then .pending
    else if m.sender = taker then .acknowledged
    else if n.table.isEligible m.sender then .superseded
    else .pending
  | .turn target session round =>
    if n.session ≠ some session then .pending
    else if offered < round then if m.sender = taker then .acknowledged else .superseded
    else if target = n.own then .outdated
    else .pending
  | _ => .pending

/-- What a node makes of a message while its offer waits. -/
def hearAsGiver (n : Node) (app : α) (taker : Address) (m : Inbound) : Reaction α :=
  let readmission := n.readmission m
  let released := { n with master := false, offer := none, deferred := some m }
  match n.judge taker m with
  | .pending =>
    { node := n, app, transition := (Transition.goTo (.awaitingTaker taker)).withMarks readmission }
  | .outdated =>
    { node := n
      app
      before := [.outdatedOffer m.sender (n.offeredRound?.getD n.rounds.held)]
      emission := some (.ack m.sender m.raw)
      transition := (Transition.goTo (.awaitingTaker taker)).withMarks readmission }
  | .acknowledged =>
    { node := { released with
        presumedHolder := some taker
        stats.turnsHandedOff := n.stats.turnsHandedOff + 1 }
      app
      before := [.handedOff taker]
      transition := (Transition.goTo .listening).withMarks readmission }
  | .superseded =>
    { node := { released with stats.tokensYielded := n.stats.tokensYielded + 1 }
      app
      before := [.handOffDropped m.sender taker]
      transition := (Transition.goTo .listening).withMarks readmission }

/-- Waits for `taker` to show that it has the token, repeats the offer when it is time, and evicts
`taker` when the offers are used up. -/
def awaitTaker (n : Node) (app : α) (taker : Address) (start : Timestamp)
    (heard : Option Inbound) : Reaction α :=
  if n.timers.offerRetry.elapsed start then
    if n.settings.offerRetryLimit.toNat ≤ n.offerRetries then
      { node := n
        app
        before := [.neverAcknowledged taker (n.offerRetries + 1)]
        transition := (Transition.goTo .offering).mark taker false }
    else
      { node := { n with
          offerRetries := n.offerRetries + 1
          timers.offerRetry := .after start n.settings.timings.offerRetry }
        app
        emission := n.offer.map (.toAll ·)
        transition := .goTo (.awaitingTaker taker) }
  else
    match heard with
    | none => { node := n, app, transition := .goTo (.awaitingTaker taker) }
    | some m => n.hearAsGiver app taker m

end RadioRing.Node
