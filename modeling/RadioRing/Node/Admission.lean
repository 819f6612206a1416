import RadioRing.Node.Reaction
/-!
# Node/Admission — how a node gets into a network

A node that starts asks to be admitted and waits for an answer.  When its requests are used up it
founds a network of its own.  A member answers a request with everything the newcomer needs; **if
the two of them are alone, the token comes with the answer**, since no hand-off would ever reach a
second node otherwise.
-/

namespace RadioRing.Node

variable {α : Type}

/-- Asks to be admitted, and sets the time of the next request. -/
def request (n : Node) (app : α) (start : Timestamp) : Except Overflow (Reaction α) :=
  let (delay, n) := n.jitter n.settings.timings.answerJitter
  match n.settings.timings.joinResend.add? delay with
  | none => .error .joinWait
  | some wait =>
    .ok {
      node := { n with timers.joinResend := .after start wait }
      app
      emission := some (.toAll (.joinRequest n.own))
      after := [.joinRequested (n.joinRetries + 1)]
      transition := .goTo .awaitingAdmission }

/-- Becomes a member of the network that an answer tells of. -/
def adopt (n : Node) (session : Session) (round : UInt32) (handsOver : Bool) (via : Address) :
    Node :=
  let rounds := Rounds.observe {} round
  { n with
    session := some session
    joinRetries := 0
    master := false
    presumedHolder := if handsOver then none else some via
    rounds := if handsOver then rounds.claim else rounds }

/-- Waits to be admitted. -/
def awaitAdmission (n : Node) (app : α) (start : Timestamp) (heard : Option Inbound) :
    Reaction α :=
  if n.timers.joinResend.elapsed start then
    if n.settings.joinRetryLimit.toNat ≤ n.joinRetries then
      { node := n, app, transition := .goTo .founding }
    else
      { node := { n with joinRetries := n.joinRetries + 1 }, app, transition := .goTo .requesting }
  else
    match heard with
    | some ⟨sender, _, .joinAck target session round handsOver members, _⟩ =>
      if target ≠ n.own then { node := n, app, transition := .goTo .awaitingAdmission }
      else
        { node := n.adopt session round handsOver sender
          app
          before := [.joined sender session members.length handsOver round]
          transition :=
            ((Transition.goTo (if handsOver then .speaking else .listening)).mark n.own true
              |>.mark sender true).withMarks (members.map (⟨·, true⟩)) }
    | _ => { node := n, app, transition := .goTo .awaitingAdmission }

/-- Starts a network of its own. -/
def found (n : Node) (app : α) : Reaction α :=
  let (word, random) := n.random.next
  let session := Session.ofWord word
  { node := { n with
      session := some session
      joinRetries := 0
      master := false
      presumedHolder := none
      rounds := {}
      random }
    app
    before := [.founded session]
    transition := (Transition.goTo .alone).mark n.own true }

/-- The answer to the request of `joiner`: the token comes with it if nobody else is around. -/
def answerFor (n : Node) (session : Session) (joiner : Address) : Message :=
  .joinAck joiner session n.rounds.seen (¬n.table.anyBesides [n.own, joiner])
    (n.table.eligibleWith [n.own, joiner])

/-- What the node knows once it has handed the token to a newcomer. -/
def letGoTo (n : Node) (joiner : Address) : Node :=
  let next := if n.rounds.seen = 4294967295 then n.rounds.seen else n.rounds.seen + 1
  { n with master := false, presumedHolder := some joiner, rounds := n.rounds.observe next }

/-- Waits for the moment to answer `joiner`, and answers. -/
def admitting (n : Node) (app : α) (joiner : Address) (start : Timestamp)
    (heard : Option Inbound) : Reaction α :=
  if ¬n.timers.reply.elapsed start then
    let (n, events) := match heard with
      | some m => n.putAside m
      | none => (n, [])
    { node := n, app, before := events, transition := .goTo (.admitting joiner) }
  else
    match n.session with
    | none => { node := n, app, transition := .goTo .listening }
    | some session =>
      let handsOver := ¬n.table.anyBesides [n.own, joiner]
      { node := if handsOver then n.letGoTo joiner else n
        app
        emission := some (.toAll (n.answerFor session joiner) .admission)
        after := [.admissionAnswered joiner handsOver]
        transition := ((Transition.goTo .listening).mark n.own true).mark joiner true }

/-- Leaves its network and asks to be admitted again. -/
def leave (n : Node) : Node :=
  { n with joinRetries := 0, master := false, offer := none, deferred := none, rounds := {} }

end RadioRing.Node
