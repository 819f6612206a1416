import RadioRing.Node.HandOff
/-!
# Node/Listening — what a node does without the token

A listener takes payloads and acknowledges them after a random delay, takes a fresh token that is
offered to it, and answers requests to be admitted.  When the ring falls silent it presumes the
holder dead, and **claims the token only if it comes next**; otherwise it waits for the one that
does.  A lone node answers requests and looks for a network from time to time.
-/

namespace RadioRing.Node

variable {α : Type}

/-- Hands a payload to the application, unless it repeats the last one. -/
def takePayload [Application α] (n : Node) (app : α) (sender : Address) (body : Bytes)
    (repeated : Bool) : Node × α × List Event :=
  if repeated ∧ n.lastDelivered = some (sender, body) then (n, app, [.duplicateRetry sender])
  else
    let taken := { n with lastDelivered := some (sender, body) }
    match Application.unwrap app body with
    | (some payload, app) => (taken, Application.deliver app sender payload, [])
    | (none, app) => (taken, app, [.notOpened sender])

/-- What a listener makes of a payload. -/
def hearPayload [Application α] (n : Node) (app : α) (m : Inbound) (body : Bytes)
    (repeated : Bool) : Reaction α :=
  let (taken, app, events) :=
    { n with presumedHolder := some m.sender }.takePayload app m.sender body repeated
  { node := taken
    app
    before := events
    transition := (Transition.goTo (.acknowledging m.sender m.raw)).withMarks (n.readmission m) }

/-- What a listener makes of an offer of the token. -/
def hearOffer (n : Node) (app : α) (m : Inbound) (target : Address) (session : Session)
    (round : UInt32) : Reaction α :=
  let listening := (Transition.goTo .listening).withMarks (n.readmission m)
  if n.session ≠ some session then
    if target = n.own then
      { node := n.leave
        app
        before := [.tokenFromElsewhere m.sender session]
        transition := .goTo .requesting }
    else
      { node := n, app, before := [.staleTurn m.sender session], transition := .goTo .listening }
  else if target ≠ n.own then
    let holder := if n.rounds.seen ≤ round then some target else n.presumedHolder
    { node := { n with presumedHolder := holder, rounds := n.rounds.observe round }
      app
      transition := listening }
  else if n.rounds.isFresh round then
    { node := { n with rounds := n.rounds.accept round, presumedHolder := some n.own }
      app
      transition := (Transition.goTo (.accepting m.sender m.raw)).withMarks (n.readmission m) }
  else
    { node := n
      app
      before := [.outdatedToken m.sender round n.rounds.held]
      emission := some (.ack m.sender m.raw)
      transition := listening }

/-- What a listener makes of a message. -/
def hearAsListener [Application α] (n : Node) (app : α) (m : Inbound) : Reaction α :=
  let listening := (Transition.goTo .listening).withMarks (n.readmission m)
  match m.message with
  | .data _ body => n.hearPayload app m body false
  | .retry _ body => n.hearPayload app m body true
  | .turn target session round => n.hearOffer app m target session round
  | .joinRequest joiner =>
    if n.session.isSome then
      { node := n
        app
        transition := (Transition.goTo (.admitting joiner)).withMarks (n.readmission m) }
    else { node := n, app, transition := listening }
  | .joinAck target session round _ _ =>
    if n.session = some session ∧ target ≠ n.own then
      { node := { n with rounds := n.rounds.observe round }
        app
        transition := listening.mark target true }
    else { node := n, app, transition := listening }
  | .ack _ => { node := n, app, transition := listening }

/-- Whom a node takes for the holder when the ring falls silent. -/
def presumedDead? (n : Node) : Option Address :=
  match n.presumedHolder with
  | some holder => if holder ≠ n.own then some holder else n.table.eligible.find? (· ≠ n.own)
  | none => n.table.eligible.find? (· ≠ n.own)

/-- The ring has been silent for too long. -/
def fireWatchdog (n : Node) (app : α) (start : Timestamp) : Reaction α :=
  let n := { n with stats.watchdogFires := n.stats.watchdogFires + 1 }
  match n.presumedDead? with
  | none =>
    { node := { n with rounds := n.rounds.claim }
      app
      before := [.claimedWithoutPeers]
      transition := .goTo .speaking }
  | some dead =>
    match n.table.successor dead with
    | some next =>
      if next ≠ n.own then
        { node := { n with
            presumedHolder := some next
            timers.watchdog := .after start n.settings.timings.watchdog }
          app
          before := [.presumedDead dead, .waitingForNext next]
          transition := (Transition.goTo .listening).mark dead false }
      else claimAfter n dead
    | none => claimAfter n dead
where
  claimAfter (n : Node) (dead : Address) : Reaction α :=
    { node := { n with rounds := n.rounds.claim }
      app
      before := [.presumedDead dead, .nextInLine]
      transition := (Transition.goTo .speaking).mark dead false }

/-- Listens: first to a message put aside, then to the radio. -/
def listen [Application α] (n : Node) (app : α) (clock : Readings) (heard : Option Inbound) :
    Reaction α :=
  if n.timers.watchdog.elapsed clock.start then n.fireWatchdog app clock.start
  else
    match n.deferred.or heard with
    | none => { node := n, app, transition := .goTo .listening }
    | some m =>
      let awake := { n with
        deferred := none
        timers.watchdog := .after clock.heard n.settings.timings.watchdog }
      awake.hearAsListener app m

/-- What a lone node makes of a message. -/
def hearAlone (n : Node) (app : α) (m : Inbound) : Reaction α :=
  let rejoin : Reaction α :=
    { node := n.leave
      app
      before := [.heardNetwork m.sender]
      transition := .goTo .requesting }
  match m.message with
  | .joinRequest joiner => { node := n, app, transition := .goTo (.admitting joiner) }
  | .turn target session round =>
    if target ≠ n.own ∨ n.session ≠ some session then rejoin
    else if n.rounds.isFresh round then
      { node := { n with rounds := n.rounds.accept round, presumedHolder := some n.own }
        app
        transition := (Transition.goTo (.accepting m.sender m.raw)).mark m.sender true }
    else
      { node := n
        app
        emission := some (.ack m.sender m.raw)
        transition := (Transition.goTo .alone).mark m.sender true }
  | .data .. | .retry .. => rejoin
  | .ack _ | .joinAck .. => { node := n, app, transition := .goTo .alone }

/-- The only member of a network: answers newcomers, and from time to time looks for a network. -/
def waitAlone (n : Node) (app : α) (start : Timestamp) (heard : Option Inbound) : Reaction α :=
  if n.timers.rescan.elapsed start then
    { node := n.leave, app, before := [.stillAlone], transition := .goTo .requesting }
  else
    match heard with
    | none => { node := n, app, transition := .goTo .alone }
    | some m => n.hearAlone app m

/-- Waits for the moment to acknowledge a payload, and acknowledges it. -/
def acknowledge (n : Node) (app : α) (holder : Address) (echo : Bytes) (start : Timestamp)
    (heard : Option Inbound) : Reaction α :=
  if ¬n.timers.reply.elapsed start then
    let (n, events) := match heard with
      | some m => n.putAside m
      | none => (n, [])
    { node := n, app, before := events, transition := .goTo (.acknowledging holder echo) }
  else
    { node := n
      app
      emission := some (.ack holder echo)
      transition := .goTo .listening }

/-- Acknowledges the offer of the token and starts the turn. -/
def acceptToken (n : Node) (app : α) (giver : Address) (echo : Bytes) : Reaction α :=
  { node := n
    app
    emission := some (.ack giver echo)
    after := [.tokenReceived giver]
    transition := .goTo .speaking }

end RadioRing.Node
