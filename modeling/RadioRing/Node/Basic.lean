import RadioRing.Membership
import RadioRing.Node.State
import RadioRing.Radio.Link
import RadioRing.Random.Draw
import RadioRing.Settings
import RadioRing.Timestamp
/-!
# Node — everything one node knows

A `Node` holds its settings, its view of the ring, its state and timers, and the token rounds it has
`held` and `seen`.  A token is fresh if its round is **above every one held and not below one seen**
(`Rounds.isFresh`), and a node mints tokens above both (`Rounds.next`).
-/

namespace RadioRing

/-- The rounds of the tokens a node knows of. -/
@[ext]
structure Rounds where
  /-- The highest round of a token the node took. -/
  held : UInt32 := 0
  /-- The highest round it heard of. -/
  seen : UInt32 := 0
deriving DecidableEq, Inhabited, Repr

namespace Rounds

/-- Whether an offer of `round` is a token newer than any held or seen. -/
def isFresh (r : Rounds) (round : UInt32) : Bool := r.held < round && r.seen ≤ round

/-- Takes note of a round. -/
def observe (r : Rounds) (round : UInt32) : Rounds := { r with seen := max r.seen round }

/-- Takes the token of a round. -/
def accept (r : Rounds) (round : UInt32) : Rounds :=
  { r with held := max r.held round }.observe round

/-- The round above all those known; the highest round of all is followed by itself. -/
def next (r : Rounds) : UInt32 :=
  let top := max r.held r.seen
  if top = 4294967295 then top else top + 1

/-- Mints the token above all those known and takes it. -/
def claim (r : Rounds) : Rounds := r.accept r.next

end Rounds

/-- The timers of a node.  Each serves one purpose. -/
@[ext]
structure Timers where
  /-- The end of the turn. -/
  turn : Deadline := .expired
  /-- The next repetition of the payload. -/
  retry : Deadline := .expired
  /-- The next request to be admitted. -/
  joinResend : Deadline := .expired
  /-- The next offer of the token to the same node. -/
  offerRetry : Deadline := .expired
  /-- The end of the silence that a listener accepts. -/
  watchdog : Deadline := .expired
  /-- The moment to answer. -/
  reply : Deadline := .expired
  /-- The next search of a lone node for a network. -/
  rescan : Deadline := .expired
deriving DecidableEq, Inhabited, Repr

/-- What a node has counted since it started.

The counters have no upper end here.  A counter of 64 bits would leave its range only after `2 ^ 64`
turns, payloads or frames, and what happens then is left out. -/
@[ext]
structure Stats where
  /-- Turns started. -/
  turnsTaken : Nat := 0
  /-- Payloads of its own that were echoed. -/
  payloadsEchoed : Nat := 0
  /-- Payloads sent again. -/
  retriesSent : Nat := 0
  /-- Acknowledgements sent, of payloads and of offers. -/
  acksSent : Nat := 0
  /-- Offers of the token that were acknowledged. -/
  turnsHandedOff : Nat := 0
  /-- Peers that lost their place in the ring. -/
  evictions : Nat := 0
  /-- Peers that got one. -/
  admissions : Nat := 0
  /-- Requests to be admitted that were answered. -/
  joinsAnswered : Nat := 0
  /-- Times the silence grew too long. -/
  watchdogFires : Nat := 0
  /-- Frames that came while another one was waiting. -/
  framesDropped : Nat := 0
  /-- Turns and offers given up for a newer token. -/
  tokensYielded : Nat := 0
deriving DecidableEq, Inhabited, Repr

/-- The names that reports use for the counters, with their values. -/
def Stats.named (s : Stats) : List (String × Nat) :=
  [("turns_taken", s.turnsTaken), ("data_acks_received", s.payloadsEchoed),
    ("retries_sent", s.retriesSent), ("acks_sent", s.acksSent),
    ("turns_handed_off", s.turnsHandedOff), ("evictions", s.evictions),
    ("admissions", s.admissions), ("joins_answered", s.joinsAnswered),
    ("watchdog_fires", s.watchdogFires), ("frames_dropped", s.framesDropped),
    ("tokens_yielded", s.tokensYielded)]

/-- Everything one node knows. -/
structure Node where
  /-- What it was told before it started. -/
  settings : Settings
  /-- Who takes turns. -/
  table : Membership
  /-- Where it stands. -/
  state : State := .requesting
  /-- Whether it holds the token, or has offered it and not yet let go. -/
  master : Bool := false
  /-- The network it belongs to. -/
  session : Option Session := none
  timers : Timers := {}
  /-- How often it has repeated its request to be admitted; never more than its limit, a number of
  32 bits, allows. -/
  joinRetries : Nat := 0
  /-- How often it has repeated its offer of the token, within a limit of the same size. -/
  offerRetries : Nat := 0
  /-- Whom it takes for the holder of the token. -/
  presumedHolder : Option Address := none
  /-- A message put aside until the node listens again. -/
  deferred : Option Inbound := none
  /-- The wrapped payload of its turn. -/
  outgoing : Bytes := []
  /-- The offer of the token that waits to be acknowledged. -/
  offer : Option Message := none
  /-- The last payload it took, and whose it was. -/
  lastDelivered : Option (Address × Bytes) := none
  rounds : Rounds := {}
  stats : Stats := {}
  /-- Where its random delays come from. -/
  random : Random.Stream
deriving Inhabited

namespace Node

/-- A node that has just been switched on. -/
def boot (settings : Settings) (random : Random.Stream) : Node :=
  { settings, table := .ofRoster settings.roster, random }

/-- The node's own address. -/
def own (n : Node) : Address := n.settings.node

/-- How the node talks over its radio. -/
def link (n : Node) : Link := ⟨n.own, n.settings.roster, n.settings.timings.sendComplete⟩

/-- A random delay of whole milliseconds up to `most`.  **A range without a whole millisecond takes
nothing from the stream.** -/
def jitter (n : Node) (most : Duration) : Duration × Node :=
  if most.clockMillis = 0 then (.zero, n)
  else
    let (ms, random) := n.random.upTo most.clockMillis
    (.ofMillis ms, { n with random })

/-- Puts a message aside; if one is waiting already, the new one is lost. -/
def putAside (n : Node) (m : Inbound) : Node × List Event :=
  match n.deferred with
  | some _ =>
    ({ n with stats.framesDropped := n.stats.framesDropped + 1 }, [.busy m.sender m.message])
  | none => ({ n with deferred := some m }, [])

end Node

/-- What an observer may know of a node. -/
structure Status where
  node : Address
  /-- The word for its state. -/
  state : String
  master : Bool
  session : Option Session
  eligible : List Address
  stats : Stats
deriving DecidableEq, Inhabited, Repr

/-- The status of a node. -/
def Node.status (n : Node) : Status :=
  { node := n.own, state := n.state.name, master := n.master, session := n.session,
    eligible := n.table.eligible, stats := n.stats }

end RadioRing
