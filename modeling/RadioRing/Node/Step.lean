import RadioRing.Node.Listening
/-!
# Node/Step — one step of a node

`Node.react` runs the one rule that the node's state calls for, and `Station.step` puts a radio
around it: **at most one packet is received, then at most one frame is sent.**
`Node.listensUntil?` says whether a step receives at all, and until when it may wait.
-/

namespace RadioRing

namespace Node

variable {α : Type}

/-- The deadline that the node's state waits for. -/
def awaited? (n : Node) : Option Deadline :=
  match n.state with
  | .awaitingAdmission => some n.timers.joinResend
  | .admitting _ | .acknowledging .. => some n.timers.reply
  | .alone => some n.timers.rescan
  | .listening => some n.timers.watchdog
  | .awaitingEcho => some (n.timers.retry.earlier n.timers.turn)
  | .awaitingTaker _ => some n.timers.offerRetry
  | .requesting | .founding | .accepting .. | .speaking | .repeating | .offering => none

/-- Whether a message put aside comes before any packet. -/
def hasWork (n : Node) : Bool := n.state = .listening && n.deferred.isSome

/-- The deadline until which a step may wait for a packet.  A step whose state waits for nothing,
that finds its deadline elapsed, or that has a message put aside, does not receive. -/
def listensUntil? (n : Node) (now : Timestamp) : Option Deadline :=
  match n.awaited? with
  | none => none
  | some d => if d.elapsed now ∨ n.hasWork then none else some d

/-- How long a wait until `limit` may last: never longer than the poll budget. -/
def waitUntil (n : Node) (limit : Deadline) (now : Timestamp) : Duration :=
  (limit.remaining now).shorter n.settings.timings.poll

/-- Waits for a packet until `limit`, and never longer than the poll budget. -/
def hearUntil {ρ : Type} [Radio ρ] (n : Node) (radio : ρ) (limit : Deadline) (now : Timestamp) :
    Option Inbound × ρ × List Event :=
  n.link.await radio (n.waitUntil limit now)

/-- What the node makes of a step in which it heard `heard`. -/
def react [Application α] (n : Node) (app : α) (clock : Readings) (heard : Option Inbound) :
    Except Overflow (Reaction α) :=
  match n.state with
  | .requesting => n.request app clock.start
  | .awaitingAdmission => .ok (n.awaitAdmission app clock.start heard)
  | .founding => .ok (n.found app)
  | .admitting joiner => .ok (n.admitting app joiner clock.start heard)
  | .alone => .ok (n.waitAlone app clock.start heard)
  | .listening => .ok (n.listen app clock heard)
  | .acknowledging holder echo => .ok (n.acknowledge app holder echo clock.start heard)
  | .accepting giver echo => .ok (n.acceptToken app giver echo)
  | .speaking => .ok (n.speak app clock.start)
  | .awaitingEcho => .ok (n.awaitEcho app clock.start heard)
  | .repeating => .ok (n.repeatPayload app clock.start)
  | .offering => .ok (n.offerToken app clock.start)
  | .awaitingTaker taker => .ok (n.awaitTaker app taker clock.start heard)

end Node

/-- A node and the application that it serves. -/
structure Station (α : Type) where
  node : Node
  app : α

namespace Station

variable {α ρ : Type}

/-- A station that has just been switched on, if its settings are in order.  It draws its random
numbers from `random`. -/
def bootWith (settings : Settings) (random : Random.Stream) (app : α) :
    Except Overflow (Except SettingsError (Station α)) :=
  match settings.check with
  | .error e => .error e
  | .ok (.error e) => .ok (.error e)
  | .ok (.ok ()) => .ok (.ok ⟨.boot settings random, app⟩)

/-- A station that has just been switched on, and repeats what it does with the same seed. -/
def boot (settings : Settings) (seed : UInt64) (app : α) :
    Except Overflow (Except SettingsError (Station α)) :=
  bootWith settings (.ofSeed seed) app

/-- Receives what the node is ready to hear. -/
def hear [Radio ρ] (s : Station α) (radio : ρ) (now : Timestamp) :
    Option Inbound × ρ × List Event :=
  match s.node.listensUntil? now with
  | none => (none, radio, [])
  | some limit => s.node.hearUntil radio limit now

/-- Sends what a reaction asks to send, and says whether the radio took it. -/
def emit [Radio ρ] (link : Link) (radio : ρ) : Option Emission → Bool × ρ × List Event
  | none => (false, radio, [])
  | some e => link.send radio e.dest e.message

/-- One step: one rule, at most one packet received and then at most one frame sent. -/
def step [Radio ρ] [Application α] (s : Station α) (radio : ρ) (clock : Readings) :
    Except Overflow (Station α × ρ × List Event) := do
  let (heard, radio, received) := s.hear radio clock.start
  let reaction ← s.node.react s.app clock heard
  let (taken, radio, sent) := emit s.node.link radio reaction.emission
  let (node, moved) ← reaction.finish taken clock.entered
  let events := received ++ reaction.before ++ sent ++ reaction.after ++ moved
  return (⟨node, reaction.app⟩, radio, events)

/-- The states after each of `count` steps during which the clock stands still, and the station and
the radio after them. -/
def steps [Radio ρ] [Application α] (s : Station α) (radio : ρ) (now : Timestamp) :
    Nat → Except Overflow (Station α × ρ × List Event × List State)
  | 0 => .ok (s, radio, [], [])
  | count + 1 => do
    let (s, radio, events) ← s.step radio (.still now)
    let (s', radio, more, seen) ← s.steps radio now count
    return (s', radio, events ++ more, s.node.state :: seen)

/-- The loop of a node that is stopped after `count` steps. -/
def run [Radio ρ] [Application α] (s : Station α) (radio : ρ) (now : Timestamp) (count : Nat) :
    Except Overflow (Station α × ρ × List Event × List State) := do
  let (s, radio, events, seen) ← s.steps radio now count
  return (s, radio, .loopStarting :: events ++ [.loopStopped s.node.state], seen)

end Station

end RadioRing
