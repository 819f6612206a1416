import RadioRing.Application
import RadioRing.Node.Reaction
/-!
# Node/Floor — the turn of a node

A turn is one payload, sent again until somebody echoes it or the turn runs out; either way the
token is offered on.  A holder that hears of a better token — **a higher round, or the same round at
a lower address** — gives its turn up (`outranked`).
-/

namespace RadioRing.Node

variable {α : Type}

/-- The mark that puts a sender back into the ring, if its message shows that it is alive and a
member.  A request to be admitted shows neither. -/
def readmission (n : Node) (m : Inbound) : List Mark :=
  let alive : Bool := match m.message with
    | .data .. | .retry .. | .ack _ => true
    | .turn _ session _ | .joinAck _ session _ _ _ => n.session = some session
    | .joinRequest _ => false
  if alive ∧ ¬n.table.isEligible m.sender then [⟨m.sender, true⟩] else []

/-- Starts a turn. -/
def speak [Application α] (n : Node) (app : α) (start : Timestamp) : Reaction α :=
  let (payload, app) := Application.nextPayload app
  let (body, app) := Application.wrap app payload
  let t := n.settings.timings
  let turn := n.stats.turnsTaken + 1
  { node := { n with
      timers.turn := .after start t.turn
      timers.retry := .after start t.retry
      master := true
      stats.turnsTaken := turn
      deferred := none
      offer := none
      outgoing := body }
    app
    emission := some (.toAll (.data n.rounds.held body))
    after := [.turnStarted turn n.rounds.held]
    transition := .goTo .awaitingEcho }

/-- Whether a token of `round` at `holder` beats the one of this node. -/
def outranked (n : Node) (round : UInt32) (holder : Address) : Bool :=
  n.rounds.held < round || (round = n.rounds.held && holder < n.own)

/-- Gives the turn up for the token that `m` tells of; `m` is looked at again when listening. -/
def yieldTo (n : Node) (app : α) (m : Inbound) : Reaction α :=
  { node := { n with
      master := false
      stats.tokensYielded := n.stats.tokensYielded + 1
      deferred := some m }
    app
    before := [.turnYielded m.sender n.rounds.held]
    transition := (Transition.goTo .listening).withMarks (n.readmission m) }

/-- What a holder makes of a message while it waits for its echo. -/
def hearAsHolder (n : Node) (app : α) (m : Inbound) : Reaction α :=
  let readmission := n.readmission m
  let stay : Reaction α :=
    { node := n, app, transition := (Transition.goTo .awaitingEcho).withMarks readmission }
  match m.message with
  | .ack echo =>
    if m.dest ≠ n.own then stay
    else if echoes echo n.rounds.held n.outgoing then
      { node := { n with stats.payloadsEchoed := n.stats.payloadsEchoed + 1 }
        app
        before := [.payloadAcknowledged m.sender]
        transition := (Transition.goTo .offering).withMarks readmission }
    else if startsAsPayload echo then
      { node := n
        app
        before := [.echoMismatch m.sender echo]
        transition := (Transition.goTo .repeating).withMarks readmission }
    else stay
  | .turn target session round =>
    if n.session ≠ some session then stay
    else if target = n.own then
      -- The acknowledgement of this offer was lost, or its sender is behind: either way it waits.
      { stay with
        node := { n with rounds := n.rounds.accept round }
        emission := some (.ack m.sender m.raw) }
    else if n.rounds.held < round then n.yieldTo app m
    else stay
  | .data round _ | .retry round _ =>
    if n.table.isEligible m.sender ∧ n.outranked round m.sender then n.yieldTo app m else stay
  | _ => stay

/-- Waits for an echo until it is time to repeat the payload or to end the turn. -/
def awaitEcho (n : Node) (app : α) (start : Timestamp) (heard : Option Inbound) : Reaction α :=
  if n.timers.turn.elapsed start then
    { node := n, app, before := [.turnElapsed], transition := .goTo .offering }
  else if n.timers.retry.elapsed start then { node := n, app, transition := .goTo .repeating }
  else
    match heard with
    | none => { node := n, app, transition := .goTo .awaitingEcho }
    | some m => n.hearAsHolder app m

/-- Sends the payload again, unless the turn is over. -/
def repeatPayload (n : Node) (app : α) (start : Timestamp) : Reaction α :=
  if n.timers.turn.elapsed start then { node := n, app, transition := .goTo .offering }
  else
    { node := { n with timers.retry := .after start n.settings.timings.retry }
      app
      emission := some (.toAll (.retry n.rounds.held n.outgoing) .repetition)
      transition := .goTo .awaitingEcho }

end RadioRing.Node
