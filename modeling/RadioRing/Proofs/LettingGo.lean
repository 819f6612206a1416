import RadioRing.Proofs.PutAside
import RadioRing.Proofs.Refusals
import RadioRing.Proofs.Transfer

/-!
# Proofs/LettingGo — the message that makes a master let go

A master that hears of a better token, or that its own one has been taken, lets go of the floor.  It
puts the message that says so aside and does nothing else about it.  The next step looks at that
message first, and **does what it would do if the message came from the radio just then**
(`Station.step_of_deferred`).  So the message is acted on in that step and never again
(`released_frame_handled_once`): a payload is taken and about to be acknowledged, and a token that
is offered to the node is taken.
-/

namespace RadioRing

variable {α : Type}

namespace Node

variable {n n' : Node} {clock : Readings} {heard : Option Inbound} {e : Option Emission}
  {t : Transition} {m : Inbound} {taker : Address}

/-- A listener that has nothing put aside puts nothing aside. -/
theorem ListenerHears.deferred_eq_none (h : n.ListenerHears m n' e t) (empty : n.deferred = none) :
    n'.deferred = none := by
  cases h with
  | calledAway => rfl
  | _ => exact empty

/-- **An offer that makes a giver let go** is of its own network, and newer than its own. -/
theorem newer_of_judge (state : n.state = .awaitingTaker taker)
    (verdict : n.judge taker m = .acknowledged ∨ n.judge taker m = .superseded)
    (session : Session) (round : UInt32) (message : m.message = .turn n.own session round) :
    n.session = some session ∧ (∃ taker, n.state = .awaitingTaker taker) ∧
      n.offeredRound?.getD n.rounds.held < round := by
  unfold judge at verdict
  simp only [message, ne_eq] at verdict
  by_cases same : n.session = some session
  · by_cases newer : n.offeredRound?.getD n.rounds.held < round
    · exact ⟨same, ⟨taker, state⟩, newer⟩
    · simp [same, newer] at verdict
  · simp [same] at verdict

/-- What becomes of a master that lets go of the floor when it has heard the message: **it puts the
message aside**, and keeps its network and its rounds. -/
structure PutsAside (n : Node) (m : Inbound) (n' : Node) : Prop where
  deferred : n'.deferred = some m
  session : n'.session = n.session
  rounds : n'.rounds = n.rounds
  /-- No offer makes a holder let go, and only a newer one makes a giver let go. -/
  newer : ∀ session round, m.message = .turn n.own session round → n.session = some session ∧
    (∃ taker, n.state = .awaitingTaker taker) ∧ n.offeredRound?.getD n.rounds.held < round

/-- **A master lets go of the floor for a message only**, and says nothing. -/
theorem Acts.of_letting_go (h : n.Acts clock heard n' e t)
    (hs : n.state = .awaitingEcho ∨ ∃ taker, n.state = .awaitingTaker taker)
    (ht : t.next = .listening) : e = none ∧ ∃ m, heard = some m ∧ n.PutsAside m n' := by
  have hmaster : n.state.isMaster = true := by
    rcases hs with hs | ⟨taker, hs⟩ <;> rw [hs] <;> rfl
  have idle {s : State} {R : Prop} (state : n.state = s) (h : s.isMaster = false) : R := by
    rw [state, h] at hmaster
    exact absurd hmaster nofun
  cases h with
  | forgets state | admits state | joins state | passesOver state | hearsListening state
  | acknowledges state | hearsAlone state => exact idle state rfl
  | waitsToReply state => exact idle rfl (State.isMaster_of_isReplying state)
  | idles => exact idle ht rfl
  | hearsHolding _ _ _ hears makes =>
    cases makes with
    | yields message =>
      refine ⟨rfl, _, hears, rfl, rfl, rfl, fun session round hm => ?_⟩
      rcases message with ⟨target, _, _, hturn, -, other, -⟩ | ⟨_, ⟨_, hdata | hretry⟩, -⟩
      · exact absurd (Message.turn.inj (hturn.symm.trans hm)).1 other
      · exact absurd (hdata.symm.trans hm) nofun
      · exact absurd (hretry.symm.trans hm) nofun
    | _ => exact absurd ht nofun
  | hearsGiving state _ hears makes =>
    cases makes with
    | handsOff verdict =>
      exact ⟨rfl, _, hears, rfl, rfl, rfl, newer_of_judge state (Or.inl verdict)⟩
    | drops verdict =>
      exact ⟨rfl, _, hears, rfl, rfl, rfl, newer_of_judge state (Or.inr verdict)⟩
    | _ => exact absurd ht nofun
  | _ => exact absurd ht nofun

end Node

namespace Station

/-- The station with nothing put aside. -/
def emptied (s : Station α) : Station α := { s with node.deferred := none }

variable {ρ : Type} [Application α] [Radio ρ] {s : Station α} {m : Inbound} {clock : Readings}

omit [Application α] in
/-- A listener with nothing put aside is ready to receive. -/
theorem patience_emptied (listening : s.node.state = .listening) {now : Timestamp}
    (early : s.node.timers.watchdog.elapsed now = false) :
    (s.emptied.node.patience now).isSome = true := by
  refine Node.isSome_patience_iff.2 ⟨s.node.timers.watchdog, ?_, early, ?_⟩
  · simp [emptied, Node.awaited?, listening]
  · simp [emptied, Node.hasWork]

/-- **To look at what was put aside is to hear it just then**: the two steps end alike, their radios
included, and the second one has received besides. -/
theorem step_of_deferred (listening : s.node.state = .listening)
    (deferred : s.node.deferred = some m)
    (early : s.node.timers.watchdog.elapsed clock.start = false) {radio₀ radio : ρ}
    {received : List Event}
    (hears : s.emptied.hear radio₀ clock.start = (some m, radio, received)) :
    s.emptied.step radio₀ clock =
      (s.step radio clock).map fun p => (p.1, p.2.1, received ++ p.2.2) := by
  have silent : s.hear radio clock.start = (none, radio, []) :=
    hear_of_deferred listening deferred radio clock.start
  have hlater : s.node.react s.app clock (s.hear radio clock.start).1 =
      .ok ((s.node.awake clock.heard).hearAsListener s.app m) := by
    unfold Node.react
    rw [listening]
    dsimp only
    rw [Node.listen_eq _ _ early, deferred]
    rfl
  have hnow : s.emptied.node.react s.emptied.app clock (s.emptied.hear radio₀ clock.start).1 =
      .ok ((s.node.awake clock.heard).hearAsListener s.app m) := by
    have listening' : s.emptied.node.state = .listening := listening
    unfold Node.react
    rw [listening', hears]
    exact congrArg Except.ok (Node.listen_eq (n := s.emptied.node) s.app (some m) early)
  have hlink : s.emptied.node.link = s.node.link := rfl
  rw [step_of_react hlater, step_of_react hnow, silent, hears, hlink]
  generalize emit s.node.link radio
    ((s.node.awake clock.heard).hearAsListener s.app m).emission = sent
  cases ((s.node.awake clock.heard).hearAsListener s.app m).finish sent.1 clock.entered with
  | error e => rfl
  | ok p => simp [bind, Except.bind, Except.map]

end Station

namespace Moment

variable {x : Moment α}

/-- The step is one of a master that waits for an answer, and ends with the master listening. -/
def LetsGo (x : Moment α) : Prop :=
  (x.before.node.state = .awaitingEcho ∨ ∃ taker, x.before.node.state = .awaitingTaker taker) ∧
    x.after.node.state = .listening

/-- A listener stays patient after a step in which it has begun to listen: its watchdog does not run
out for its whole time, nor before the clock stops. -/
def Patient (x : Moment α) (now : Timestamp) : Prop :=
  now.millis < x.clock.entered.millis + x.before.node.settings.timings.watchdog.wholeMillis ∧
    now.millis < Duration.maxMillis

variable [Application α] {m : Inbound}

/-- **A master lets go of the floor for a message only**, and puts it aside. -/
theorem Happens.of_letsGo (h : x.Happens) (lets : x.LetsGo) : x.reaction.emission = none ∧
    ∃ m, x.heard = some m ∧ x.before.node.PutsAside m x.after.node := by
  obtain ⟨waits, hlistens⟩ := lets
  obtain ⟨silent, m, hm, deferred, session, rounds, newer⟩ :=
    h.acts.of_letting_go waits (h.state_after ▸ hlistens)
  refine ⟨silent, m, hm, ?_, ?_, ?_, newer⟩
  · rw [h.deferred_after, deferred]
  · rw [h.session_after, session]
  · rw [h.rounds_after, rounds]

/-- A watchdog that is armed when the step ends does not run out while the listener is patient. -/
theorem Happens.early_of_patient (h : x.Happens) (lets : x.LetsGo) {now : Timestamp}
    (patient : x.Patient now) : x.after.node.timers.watchdog.elapsed now = false := by
  have hbefore : x.before.node.state ≠ .listening := by
    rcases lets.1 with hs | ⟨taker, hs⟩ <;> rw [hs] <;> nofun
  rw [h.watchdog_after hbefore lets.2, Deadline.elapsed_after_eq_false_iff]
  exact Nat.lt_min.2 patient

/-- **A newer token that was offered to a giver is fresh** for it. -/
theorem Happens.isFresh_of_letsGo (h : x.Happens) (hs : x.before.Reachable) (lets : x.LetsGo)
    (hm : x.heard = some m) {session : Session} {round : UInt32}
    (message : m.message = .turn x.before.node.own session round) :
    x.after.node.session = some session ∧ x.after.node.rounds.isFresh round = true := by
  obtain ⟨-, m', hm', aside⟩ := h.of_letsGo lets
  obtain rfl := Option.some.inj (hm.symm.trans hm')
  obtain ⟨same, ⟨taker, state⟩, newer⟩ := aside.newer session round message
  obtain ⟨_, -, offer⟩ := (hs.offers state).offer
  have offered : x.before.node.offeredRound? = some x.before.node.rounds.seen := by
    rw [Node.offeredRound?, offer]
  rw [offered, Option.getD_some, UInt32.lt_iff_toNat_lt] at newer
  have sound := (Station.sound_of_reachable hs).rounds
  refine ⟨aside.session.trans same, ?_⟩
  rw [aside.rounds, Rounds.isFresh_iff]
  omega

/-- **What comes of the message that was put aside**: it is put aside no longer, a payload is taken,
and so is a fresh token that is offered to the node. -/
theorem Happens.of_deferred_after {y : Moment α} (h : y.Happens)
    (listening : y.before.node.state = .listening) (deferred : y.before.node.deferred = some m)
    (early : y.before.node.timers.watchdog.elapsed y.clock.start = false) :
    y.after.node.deferred = none ∧ y.after.kept = y.before.kept.take m ∧
      (∀ body, m.message.IsPayload body →
        y.after.node.state = .acknowledging m.sender m.raw) ∧
      ∀ session round, m.message = .turn y.before.node.own session round →
        y.before.node.session = some session → y.before.node.rounds.isFresh round = true →
          y.after.node.state = .accepting m.sender m.raw ∧ y.after.node.rounds.held = round := by
  obtain ⟨-, hr⟩ := h.of_deferred listening deferred early
  have hregards : y.Regards m := by
    rw [Regards, Node.regards_of_listening listening, deferred]
    rfl
  refine ⟨?_, ?_, fun body hbody => ?_, fun session round message same fresh => ?_⟩
  · rw [h.deferred_after, hr]
    exact (Node.listenerHears _ _ m).deferred_eq_none rfl
  · have hafter : y.after.kept = y.reaction.kept := Kept.ext h.lastDelivered_after h.steps.app
    rw [hafter, hr, Node.kept_hearAsListener]
    rfl
  · exact (h.of_takesUp (Node.takesUp_eq_some_iff.2
      ⟨listening, early, hregards, hbody.tag_eq⟩)).1
  · have hoffer := h.of_offer listening early hregards message same
    rw [if_pos fresh] at hoffer
    obtain ⟨-, hstate, hrounds⟩ := hoffer
    exact ⟨hstate, by rw [hrounds, Rounds.held_accept_of_isFresh fresh]⟩

end Moment

variable [Application α]

/-- **The message that makes a master let go of the floor is handled exactly once.**  A master that
waits for the echo of its payload, or for the taker of its token, lets go of the floor in the step
`x` and listens.  It does so for a message that it has heard.  It puts that message aside, says
nothing about it, and takes nothing from it: neither a payload nor a round.  The next step, if it
comes while the watchdog of the listener runs, receives nothing from the radio, does not fail, and
has put nothing aside any more.  It is the step that the station would take if it had put nothing
aside and heard the message from its radio just then.  So a payload is taken, unless it is sent
again and is the last one that was taken, and the node is about to acknowledge it; and if the
message offers the token to the node, the node takes it. -/
theorem released_frame_handled_once {x : Moment α} (hs : x.before.Reachable) (hx : x.Happens)
    (lets : x.LetsGo) :
    x.reaction.emission = none ∧ ∃ m, x.heard = some m ∧ x.after.node.deferred = some m ∧
      x.after.kept = x.before.kept ∧ x.after.node.rounds = x.before.node.rounds ∧
      ∀ {ρ : Type} [Radio ρ] (radio : ρ) (clock : Readings), x.Patient clock.start →
        x.after.hear radio clock.start = (none, radio, []) ∧
        (x.after.emptied.node.patience clock.start).isSome = true ∧
        (∀ radio₀ received, x.after.emptied.hear radio₀ clock.start = (some m, radio, received) →
          x.after.emptied.step radio₀ clock =
            (x.after.step radio clock).map fun p => (p.1, p.2.1, received ++ p.2.2)) ∧
        ∃ u radio' events, x.after.step radio clock = .ok (u, radio', events) ∧
          u.node.deferred = none ∧ u.kept = x.before.kept.take m ∧
          (∀ body, m.message.IsPayload body → u.node.state = .acknowledging m.sender m.raw) ∧
          ∀ session round, m.message = .turn x.before.node.own session round →
            u.node.state = .accepting m.sender m.raw ∧ u.node.rounds.held = round := by
  obtain ⟨silent, m, hm, aside⟩ := hx.of_letsGo lets
  have hkept : x.after.kept = x.before.kept := by
    have hstate : x.before.node.state ≠ .listening ∧ x.before.node.state ≠ .speaking := by
      rcases lets.1 with hs | ⟨taker, hs⟩ <;> rw [hs] <;> exact ⟨nofun, nofun⟩
    have hnothing : x.takesUp = none := if_neg fun h => hstate.1 h.1
    rw [hx.kept_after hstate.2, hnothing]
    rfl
  refine ⟨silent, m, hm, aside.deferred, hkept, aside.rounds, fun radio clock patient => ?_⟩
  have early := hx.early_of_patient lets patient
  refine ⟨Station.hear_of_deferred lets.2 aside.deferred radio clock.start,
    Station.patience_emptied lets.2 early,
    fun _ _ => Station.step_of_deferred lets.2 aside.deferred early, ?_⟩
  obtain ⟨⟨u, radio', events⟩, hstep⟩ :=
    Station.proceeds_of_state (s := x.after) (by rw [lets.2]; simp) radio clock
  obtain ⟨y, hy, hbefore, rfl, rfl⟩ := Station.exists_happensOn hstep
  rw [← hbefore] at early
  obtain ⟨hempty, htaken, hpayload, hoffer⟩ :=
    hy.happens.of_deferred_after (hbefore ▸ lets.2) (hbefore ▸ aside.deferred) early
  refine ⟨_, radio', events, hstep, hempty, ?_, hpayload, fun session round message => ?_⟩
  · rw [htaken, hbefore, hkept]
  · obtain ⟨same, fresh⟩ := hx.isFresh_of_letsGo hs lets hm message
    have hown : y.before.node.own = x.before.node.own := by rw [hbefore, hx.own_after]
    rw [← hown] at message
    rw [← hbefore] at same fresh
    exact hoffer session round message same fresh

/-! ## Node 1 lets go of the floor -/

/-- Two moments of a run that is played, one after the other. -/
def Station.playedPair? (script : List (Timestamp × List Packet)) (i : Nat) :
    Option (Moment Beacon × Moment Beacon) :=
  (played? ⟨1⟩ script).bind fun p => p.2.1[i]?.bind fun x => p.2.1[i + 1]?.map fun y => (x, y)

theorem Station.successive_of_playedPair? {script : List (Timestamp × List Packet)} {i : Nat}
    {p : Moment Beacon × Moment Beacon} (h : playedPair? script i = some p) :
    p.1.before.Reachable ∧ p.1.Happens ∧ p.2.Happens ∧ p.2.before = p.1.after := by
  obtain ⟨⟨s, run, t⟩, hp, h⟩ := Option.bind_eq_some_iff.1 h
  obtain ⟨x, hx, h⟩ := Option.bind_eq_some_iff.1 h
  obtain ⟨y, hy, rfl⟩ := Option.map_eq_some_iff.1 h
  obtain ⟨boot, hrun⟩ := run_of_played? hp
  obtain ⟨hi, rfl⟩ := List.getElem?_eq_some_iff.1 hx
  obtain ⟨hnext, rfl⟩ := List.getElem?_eq_some_iff.1 hy
  rw [eq_take_append_get run ⟨i, hi⟩] at hrun
  obtain ⟨hearly, happens, hlate⟩ := hrun.of_middle
  rw [List.drop_eq_getElem_cons hnext] at hlate
  obtain ⟨hbefore, hnext, -⟩ := hlate.of_cons
  exact ⟨hearly.reachable boot.reachable, happens, hnext, hbefore⟩

/-- Node 1 is let in by node 2, which hands it the token of round 6, and begins its turn. -/
def turnOfOne (now : Timestamp) : List (Timestamp × List Packet) :=
  [(now, []),
    (now, [⟨some ⟨2⟩, ⟨1⟩, (Message.joinAck ⟨1⟩ ⟨7⟩ 5 true [⟨1⟩, ⟨2⟩]).encode⟩]),
    (now, [])]

/-- The payload of node 2 with the token of round 9, as it is heard. -/
def rivalPayload : Inbound := ⟨⟨2⟩, .everyone, .data 9 [5], (Message.data 9 [5]).encode⟩

/-- The offer of node 3 to node 1, of the token of round 9. -/
def rivalOffer : Inbound :=
  ⟨⟨3⟩, .everyone, .turn ⟨1⟩ ⟨7⟩ 9, (Message.turn ⟨1⟩ ⟨7⟩ 9).encode⟩

/-- The packet that brings a message. -/
def Inbound.packet (m : Inbound) : Packet := ⟨some m.sender, m.dest, m.raw⟩

/-- Node 1 waits for its echo and hears the payload of node 2. -/
def yielding? : Option (Moment Beacon × Moment Beacon) :=
  Station.playedPair? (turnOfOne .zero ++
    [(.ofMillis 100, [rivalPayload.packet]), (.ofMillis 200, [])]) 3

theorem isSome_yielding? : yielding?.isSome = true := by decide +kernel

def yielding : Moment Beacon × Moment Beacon := yielding?.get isSome_yielding?

/-- Node 1 has offered the token to node 2, and hears the offer of node 3. -/
def superseded? : Option (Moment Beacon × Moment Beacon) :=
  Station.playedPair? (turnOfOne .zero ++
    [(.ofMillis 8000, []), (.ofMillis 8000, []), (.ofMillis 8100, [rivalOffer.packet]),
      (.ofMillis 8200, [])]) 5

theorem isSome_superseded? : superseded?.isSome = true := by decide +kernel

def superseded : Moment Beacon × Moment Beacon := superseded?.get isSome_superseded?

theorem letsGo_yielding : yielding.1.before.Reachable ∧ yielding.1.Happens ∧
    yielding.1.LetsGo ∧ yielding.1.heard = some rivalPayload := by
  obtain ⟨hs, hx, -, -⟩ := Station.successive_of_playedPair? (Option.some_get isSome_yielding?).symm
  exact ⟨hs, hx, ⟨Or.inl (by decide +kernel), by decide +kernel⟩, by decide +kernel⟩

theorem letsGo_superseded : superseded.1.before.Reachable ∧ superseded.1.Happens ∧
    superseded.1.LetsGo ∧ superseded.1.heard = some rivalOffer := by
  obtain ⟨hs, hx, -, -⟩ :=
    Station.successive_of_playedPair? (Option.some_get isSome_superseded?).symm
  exact ⟨hs, hx, ⟨Or.inr ⟨⟨2⟩, by decide +kernel⟩, by decide +kernel⟩, by decide +kernel⟩

/-- The radio that brings the message. -/
def radioBringing (m : Inbound) : ScriptedRadio := { inbox := [m.packet] }

/-- **Node 1 takes the payload for which it has yielded**, just as it would if it came from the radio
then, **and the token that has superseded its offer.** -/
theorem released_frame_handled_once_of_rivals :
    (∃ radio received u radio' events,
      yielding.1.after.step radio (.still (.ofMillis 200)) = .ok (u, radio', events) ∧
      yielding.1.after.emptied.step (radioBringing rivalPayload) (.still (.ofMillis 200)) =
        .ok (u, radio', received ++ events) ∧
      u.node.state = .acknowledging ⟨2⟩ rivalPayload.raw ∧ u.app.delivered = [(⟨2⟩, [5])]) ∧
    ∃ u radio' events,
      superseded.1.after.step ({} : ScriptedRadio) (.still (.ofMillis 8200)) =
        .ok (u, radio', events) ∧
      u.node.state = .accepting ⟨3⟩ rivalOffer.raw ∧ u.node.rounds.held = 9 := by
  constructor
  · obtain ⟨hs, hx, lets, heard⟩ := letsGo_yielding
    obtain ⟨-, m, hm, -, -, -, next⟩ := released_frame_handled_once hs hx lets
    obtain rfl := Option.some.inj (heard.symm.trans hm)
    let p := yielding.1.after.emptied.hear (radioBringing rivalPayload) (.ofMillis 200)
    have hears : p = (some rivalPayload, p.2.1, p.2.2) := Prod.ext (by decide +kernel) rfl
    obtain ⟨-, -, alike, u, radio', events, hstep, -, htaken, hpayload, -⟩ :=
      next p.2.1 (.still (.ofMillis 200)) ⟨by decide +kernel, by decide +kernel⟩
    refine ⟨p.2.1, p.2.2, u, radio', events, hstep, ?_, hpayload [5] ⟨9, Or.inl rfl⟩, ?_⟩
    · rw [alike _ _ hears, hstep]
      rfl
    · have hdelivered := congrArg (fun k => k.app.delivered) htaken
      exact hdelivered.trans (by decide +kernel)
  · obtain ⟨hs, hx, lets, heard⟩ := letsGo_superseded
    obtain ⟨-, m, hm, -, -, -, next⟩ := released_frame_handled_once hs hx lets
    obtain rfl := Option.some.inj (heard.symm.trans hm)
    obtain ⟨-, -, -, u, radio', events, hstep, -, -, -, hoffer⟩ :=
      next ({} : ScriptedRadio) (.still (.ofMillis 8200)) ⟨by decide +kernel, by decide +kernel⟩
    obtain ⟨hstate, hheld⟩ := hoffer ⟨7⟩ 9 (by decide +kernel)
    exact ⟨u, radio', events, hstep, hstate, hheld⟩

/-! ## Where the message is not handled, and where it is not delivered -/

/-- Ten seconds before the clock stops node 1 begins its turn, it yields it for the payload of node
2, and it listens again when the clock has stopped. -/
def clockStops? : Option (Moment Beacon × Moment Beacon) :=
  Station.playedPair? (turnOfOne (.ofMillis (Duration.maxMillis - 10000)) ++
    [(.ofMillis (Duration.maxMillis - 9900), [rivalPayload.packet]),
      (.ofMillis Duration.maxMillis, [])]) 3

theorem isSome_clockStops? : clockStops?.isSome = true := by decide +kernel

def clockStops : Moment Beacon × Moment Beacon := clockStops?.get isSome_clockStops?

/-- Node 2 sends the payload again that node 1 has taken from it in round 6. -/
def repeatedPayload : Inbound := ⟨⟨2⟩, .everyone, .retry 8 [5], (Message.retry 8 [5]).encode⟩

/-- Node 1, let in by node 2, takes a payload and the token of node 2 and begins its turn, but yields
it when node 2 sends that payload again in a later round. -/
def hearsAgain? : Option (Moment Beacon × Moment Beacon) :=
  Station.playedPair? [
    (.zero, []),
    (.zero, [⟨some ⟨2⟩, ⟨1⟩, (Message.joinAck ⟨1⟩ ⟨7⟩ 5 false [⟨1⟩, ⟨2⟩]).encode⟩]),
    (.zero, [⟨some ⟨2⟩, .everyone, (Message.data 6 [5]).encode⟩]),
    (.zero, []),
    (.zero, [⟨some ⟨2⟩, .everyone, (Message.turn ⟨1⟩ ⟨7⟩ 7).encode⟩]),
    (.zero, []), (.zero, []),
    (.ofMillis 100, [repeatedPayload.packet]), (.ofMillis 200, [])] 7

theorem isSome_hearsAgain? : hearsAgain?.isSome = true := by decide +kernel

def hearsAgain : Moment Beacon × Moment Beacon := hearsAgain?.get isSome_hearsAgain?

/-- **The message is not handled in every step that comes soon enough, and not every payload is
delivered.**  When the clock stops, a watchdog runs out that has not had its time, and the message
stays put aside.  And a payload that is sent again is delivered once. -/
theorem not_released_frame_handled_once :
    (¬∀ (x y : Moment Beacon) (m : Inbound), x.before.Reachable → x.Happens → x.LetsGo →
      x.heard = some m → y.Happens → y.before = x.after →
        y.clock.start.millis <
          x.clock.entered.millis + x.before.node.settings.timings.watchdog.wholeMillis →
        y.after.node.deferred = none) ∧
    ¬∀ (x y : Moment Beacon) (m : Inbound) (body : Bytes), x.before.Reachable → x.Happens →
      x.LetsGo → x.heard = some m → y.Happens → y.before = x.after → x.Patient y.clock.start →
        m.message.IsPayload body → y.Delivers m.sender body := by
  constructor
  · intro all
    obtain ⟨hs, hx, hy, hnext⟩ :=
      Station.successive_of_playedPair? (Option.some_get isSome_clockStops?).symm
    have hempty := all clockStops.1 clockStops.2 rivalPayload hs hx
      ⟨Or.inl (by decide +kernel), by decide +kernel⟩ (by decide +kernel) hy hnext
      (by decide +kernel)
    exact absurd hempty (by decide +kernel)
  · intro all
    obtain ⟨hs, hx, hy, hnext⟩ :=
      Station.successive_of_playedPair? (Option.some_get isSome_hearsAgain?).symm
    obtain ⟨new, hnew, hmem⟩ := all hearsAgain.1 hearsAgain.2 repeatedPayload [5] hs hx
      ⟨Or.inl (by decide +kernel), by decide +kernel⟩ (by decide +kernel) hy hnext
      ⟨by decide +kernel, by decide +kernel⟩ ⟨8, Or.inr rfl⟩
    have same : hearsAgain.2.after.app.delivered = hearsAgain.2.before.app.delivered := by
      decide +kernel
    rw [same] at hnew
    rw [List.self_eq_append_right.1 hnew] at hmem
    exact absurd hmem List.not_mem_nil

end RadioRing
