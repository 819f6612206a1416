import RadioRing.Proofs.Belonging
import RadioRing.Proofs.Exchange

/-!
# Proofs/Isolation — what a frame of another network does

Two kinds of frame name the network they are about, the offer of a token and the answer to a request
(`Message.session?`).  A node in a network **does nothing about one that names another network**,
whether it comes from the radio or had been put aside: it sends nothing, and only its timers, the
message put aside and the count of frames lost may change (`Node.Unmoved`).  The exception is an
offer that calls the node away (`Node.CalledAwayBy`), after which it asks to be admitted again.
-/

namespace RadioRing

/-- The network that a message is about, if it names one. -/
def Message.session? : Message → Option Session
  | turn _ session _ | joinAck _ session _ _ _ => some session
  | data .. | retry .. | ack _ | joinRequest _ => none

/-- A message that names a network offers a token or answers a request. -/
theorem Message.of_session? {m : Message} {session : Session} (h : m.session? = some session) :
    (∃ target round, m = .turn target session round) ∨
      ∃ target round handsOver members, m = .joinAck target session round handsOver members := by
  cases m with
  | turn target session' round =>
    obtain rfl := Option.some.inj h
    exact Or.inl ⟨target, round, rfl⟩
  | joinAck target session' round handsOver members =>
    obtain rfl := Option.some.inj h
    exact Or.inr ⟨target, round, handsOver, members, rfl⟩
  | _ => exact absurd h nofun

namespace Node

variable {n n' : Node} {clock : Readings} {heard : Option Inbound} {e : Option Emission}
  {t : Transition} {m : Inbound} {session other : Session}

/-- The message is an offer that makes the node leave its network, if it is about another one: a
listener follows an offer that names it, a lone node any offer. -/
def CalledAwayBy (n : Node) (m : Inbound) : Prop :=
  (n.state = .listening ∧ ∃ session round, m.message = .turn n.own session round) ∨
    (n.state = .alone ∧ ∃ target session round, m.message = .turn target session round)

/-- The second node differs from the first one at most in its timers, in what is put aside, and in
the count of frames lost. -/
def Unmoved (n n' : Node) : Prop :=
  n' = { n with
    timers := n'.timers
    deferred := n'.deferred
    stats.framesDropped := n'.stats.framesDropped }

/-- The message names a network, and it is not that of the node. -/
structure Foreign (n : Node) (m : Inbound) (other : Session) : Prop where
  names : m.message.session? = some other
  apart : n.session ≠ some other

/-! ## Rule by rule -/

namespace Foreign

variable (h : n.Foreign m other)

include h

/-- No branch for the node's own network is taken. -/
theorem session_ne (names : m.message.session? = some session) : n.session ≠ some session := by
  obtain rfl := Option.some.inj (h.names.symm.trans names)
  exact h.apart

/-- Nor is a branch for a message that names no network. -/
theorem names_ne : m.message.session? ≠ none := by
  rw [h.names]
  nofun

theorem not_carries {round : UInt32} : ¬m.Carries round := by
  rintro ⟨body, hm | hm⟩ <;> exact h.names_ne (congrArg Message.session? hm)

theorem readmission_eq_nil : n.readmission m = [] := by
  unfold readmission
  obtain ⟨target, round, hm⟩ | ⟨target, round, handsOver, members, hm⟩ :=
    Message.of_session? h.names <;> simp [hm, h.apart]

/-- **A giver learns nothing about its offer** from another network. -/
theorem judge_eq (taker : Address) : n.judge taker m = .pending := by
  unfold judge
  obtain ⟨target, round, hm⟩ | ⟨target, round, handsOver, members, hm⟩ :=
    Message.of_session? h.names <;> simp [hm, h.apart]

/-- **A listener passes over it**, or is called away. -/
theorem of_listener (makes : n.ListenerHears m n' e t) : e = none ∧
    ((∃ session round, m.message = .turn n.own session round) ∧ n' = n.leave ∧
        t = .goTo .requesting ∨
      (¬∃ session round, m.message = .turn n.own session round) ∧ n' = n ∧
        t = .goTo .listening) := by
  cases makes with
  | payload message => exact absurd message h.not_carries
  | calledAway message => exact ⟨rfl, Or.inl ⟨⟨_, _, message⟩, rfl, rfl⟩⟩
  | foreignOffer message foreign target =>
    refine ⟨rfl, Or.inr ⟨?_, rfl, rfl⟩⟩
    rintro ⟨session, round, hm⟩
    exact target (Message.turn.inj (message.symm.trans hm)).1
  | offerToOther message same | takes message same | declines message same | learns message same =>
    exact absurd same (h.session_ne (congrArg Message.session? message))
  | asked message => exact absurd (congrArg Message.session? message) h.names_ne
  | ignores message =>
    rw [h.readmission_eq_nil]
    refine ⟨rfl, Or.inr ⟨?_, rfl, rfl⟩⟩
    rintro ⟨session, round, hm⟩
    rw [hm] at message
    simp [Message.tag] at message

/-- **A lone node leaves for any offer of it**, and passes over the rest. -/
theorem of_lone (makes : n.LoneHears m n' e t) : e = none ∧
    ((∃ target session round, m.message = .turn target session round) ∧ n' = n.leave ∧
        t = .goTo .requesting ∨
      (¬∃ target session round, m.message = .turn target session round) ∧ n' = n ∧
        t = .goTo .alone) := by
  cases makes with
  | asked message => exact absurd (congrArg Message.session? message) h.names_ne
  | rejoins message =>
    refine ⟨rfl, Or.inl ⟨?_, rfl, rfl⟩⟩
    rcases message with ⟨round, carries⟩ | ⟨target, session, round, hm, -⟩
    · exact absurd carries h.not_carries
    · exact ⟨target, session, round, hm⟩
  | takes message same | declines message same =>
    exact absurd same (h.session_ne (congrArg Message.session? message))
  | ignores message =>
    refine ⟨rfl, Or.inr ⟨?_, rfl, rfl⟩⟩
    rintro ⟨target, session, round, hm⟩
    rw [hm] at message
    simp [Message.tag] at message

/-- **A holder waits on.** -/
theorem of_holder (makes : n.HolderHears m n' e t) :
    e = none ∧ n' = n ∧ t = .goTo .awaitingEcho := by
  cases makes with
  | echoed message | garbled message =>
    exact absurd (congrArg Message.session? message) h.names_ne
  | offered message same => exact absurd same (h.session_ne (congrArg Message.session? message))
  | yields message =>
    rcases message with ⟨target, session, round, hm, same, -⟩ | ⟨round, carries, -⟩
    · exact absurd same (h.session_ne (congrArg Message.session? hm))
    · exact absurd carries h.not_carries
  | stays =>
    rw [h.readmission_eq_nil]
    exact ⟨rfl, rfl, rfl⟩

/-- **A giver waits on.** -/
theorem of_giver {taker : Address} (makes : n.GiverHears taker m n' e t) :
    e = none ∧ n' = n ∧ t = .goTo (.awaitingTaker taker) := by
  cases makes with
  | waits =>
    rw [h.readmission_eq_nil]
    exact ⟨rfl, rfl, rfl⟩
  | releases verdict | handsOff verdict | drops verdict =>
    rw [h.judge_eq] at verdict
    exact absurd verdict nofun

end Foreign

/-! ## Any step -/

/-- **What a node makes of a message of another network**: it is called away, or it does nothing
about it. -/
theorem Acts.of_foreign (h : n.Acts clock heard n' e t) (hm : n.Foreign m other)
    (member : n.session ≠ none) (early : ∃ d ∈ n.awaited?, d.elapsed clock.start = false)
    (admitted : n.state ≠ .awaitingAdmission) (regards : n.regards heard = some m) : e = none ∧
    (n.CalledAwayBy m ∧ t = .goTo .requesting ∧ n' = { n.leave with timers := n'.timers } ∨
      ¬n.CalledAwayBy m ∧ t = .goTo n.state ∧ n.Unmoved n') := by
  have uncalled (hlistening : n.state ≠ .listening) (halone : n.state ≠ .alone) :
      ¬n.CalledAwayBy m := fun h => h.elim (hlistening ·.1) (halone ·.1)
  have hears' {m' : Inbound} (hlistening : n.state ≠ .listening) (hears : heard = some m') :
      m' = m := by
    rw [regards_of_ne_listening hlistening, hears] at regards
    exact Option.some.inj regards
  cases h with
  | joins state | asksAgain state | stopsAsking state => exact absurd state admitted
  | forgets _ outside => exact absurd outside member
  | idles _ _ idle => exact absurd (idle m regards).1 admitted
  -- A state that waits for nothing reads nothing.
  | asks state | founds state | accepts state | speaks state | repeats state | strays state
  | findsNobody state | offers state => simp [awaited?, state] at early
  -- Nor does a step that comes after its deadline.
  | admits state due | acknowledges state due | rescans state due | claimsUnopposed state due
  | claims state due | passesOver state due | turnsToRepeat state _ due | offersAgain state due
  | stopsOffering state due => simp [awaited?, state, due, Deadline.elapsed_earlier] at early
  | endsTurn state due =>
    rcases state with state | state <;>
      simp [awaited?, state, due, Deadline.elapsed_earlier] at early
  | waitsToReply state =>
    refine ⟨rfl, Or.inr ⟨uncalled ?_ ?_, rfl, rfl⟩⟩ <;> intro hs <;> rw [hs] at state <;>
      exact absurd state Bool.false_ne_true
  | hearsListening state early hears makes =>
    obtain rfl := Option.some.inj (hears.symm.trans (regards_of_listening state heard ▸ regards))
    have hawake : (n.awake clock.heard).Foreign _ other := ⟨hm.names, hm.apart⟩
    obtain ⟨he, ⟨turn, hn, ht⟩ | ⟨other, hn, ht⟩⟩ := hawake.of_listener makes
    · exact ⟨he, Or.inl ⟨Or.inl ⟨state, turn⟩, ht, hn ▸ rfl⟩⟩
    · have halone : n.state ≠ .alone := by simp [state]
      exact ⟨he, Or.inr ⟨fun h => h.elim (other ·.2) (halone ·.1), ht.trans (by rw [state]),
        hn ▸ rfl⟩⟩
  | hearsAlone state early hears makes =>
    have hne : n.state ≠ .listening := by simp [state]
    obtain rfl := hears' hne hears
    obtain ⟨he, ⟨turn, hn, ht⟩ | ⟨other, hn, ht⟩⟩ := hm.of_lone makes
    · exact ⟨he, Or.inl ⟨Or.inr ⟨state, turn⟩, ht, hn ▸ rfl⟩⟩
    · exact ⟨he, Or.inr ⟨fun h => h.elim (hne ·.1) (other ·.2), ht.trans (by rw [state]), hn ▸ rfl⟩⟩
  | hearsHolding state _ _ hears makes =>
    have hne : n.state ≠ .listening := by simp [state]
    have halone : n.state ≠ .alone := by simp [state]
    obtain rfl := hears' hne hears
    obtain ⟨he, hn, ht⟩ := hm.of_holder makes
    exact ⟨he, Or.inr ⟨uncalled hne halone, ht.trans (by rw [state]), hn ▸ rfl⟩⟩
  | hearsGiving state _ hears makes =>
    have hne : n.state ≠ .listening := by simp [state]
    have halone : n.state ≠ .alone := by simp [state]
    obtain rfl := hears' hne hears
    obtain ⟨he, hn, ht⟩ := hm.of_giver makes
    exact ⟨he, Or.inr ⟨uncalled hne halone, ht.trans (by rw [state]), hn ▸ rfl⟩⟩

end Node

namespace Moment

variable {α : Type} {x : Moment α} {m : Inbound}

/-- The step reads the message: it comes from the radio, or a listener takes up what it had put
aside. -/
def Reads (x : Moment α) (m : Inbound) : Prop :=
  x.heard = some m ∨ x.before.node.state = .listening ∧
    x.before.node.timers.watchdog.elapsed x.clock.start = false ∧ x.before.node.deferred = some m

variable [Application α]

/-- **A step that receives comes before the deadline of its state**, and has nothing to take up. -/
theorem Happens.polls_of_heard (h : x.Happens) (hm : x.heard = some m) :
    (∃ d ∈ x.before.node.awaited?, d.elapsed x.clock.start = false) ∧
      x.before.node.hasWork = false := by
  obtain ⟨ρ, _, radio, radio', events, -, hheard, -⟩ := h
  unfold Station.hear at hheard
  split at hheard
  · exact absurd (hheard.trans hm) nofun
  · rename_i polls
    obtain ⟨awaited, early, idle⟩ := Node.listensUntil?_eq_some_iff.1 polls
    exact ⟨⟨_, awaited, early⟩, idle⟩

theorem Happens.regards_of_reads (h : x.Happens) (reads : x.Reads m) : x.Regards m ∧
    ∃ d ∈ x.before.node.awaited?, d.elapsed x.clock.start = false := by
  unfold Regards Node.regards
  rcases reads with hm | ⟨listening, early, deferred⟩
  · obtain ⟨early, idle⟩ := h.polls_of_heard hm
    refine ⟨?_, early⟩
    split
    · rename_i listening
      have nothing : x.before.node.deferred = none := by
        simpa [Node.hasWork, listening] using idle
      rw [nothing, hm]
      rfl
    · exact hm
  · rw [if_pos listening, deferred]
    exact ⟨rfl, _, by rw [Node.awaited?, listening]; rfl, early⟩

/-- **A step that sends nothing, changes no flag and arms nothing** changes what its rule changes,
and the state. -/
theorem Happens.node_after_of_goTo (h : x.Happens) {next : State}
    (ht : x.reaction.transition = .goTo next) (quiet : x.reaction.emission = none)
    (unarmed : next = x.reaction.node.state ∨ next.armed = []) :
    x.after.node = { x.reaction.node with state := next } :=
  h.node_after_of_uncredited _ ht (by rw [Reaction.credit, quiet]) unarmed

end Moment

/-- **Networks are isolated from one another.**  A node of a network that does not wait to be
admitted reads the offer of a token, or the answer to a request, of another network.  Whatever it is
doing, it sends nothing.  It leaves its network exactly if it listens and the offer names it, or if
it is alone and it is an offer; then it forgets its requests, its token, its offer, the message put
aside and both rounds, and asks to be admitted again.  Otherwise nothing about it changes but its
timers, the message put aside and the count of frames lost. -/
theorem networks_isolated {α : Type} [Application α] {x : Moment α} {m : Inbound}
    {session other : Session} (h : x.Happens) (member : x.before.node.session = some session)
    (admitted : x.before.node.state ≠ .awaitingAdmission) (reads : x.Reads m)
    (names : m.message.session? = some other) (apart : other ≠ session) :
    x.reaction.emission = none ∧
    (x.after.node.state = .requesting ↔ x.before.node.CalledAwayBy m) ∧
    (x.after.node.state = .requesting → x.after.node = { x.before.node with
      state := .requesting
      joinRetries := 0
      master := false
      offer := none
      deferred := none
      rounds := {}
      timers := x.after.node.timers }) ∧
    (x.after.node.state ≠ .requesting → x.before.node.Unmoved x.after.node) := by
  have hforeign : x.before.node.Foreign m other := by
    refine ⟨names, fun hsame => apart ?_⟩
    exact Option.some.inj (hsame.symm.trans member)
  obtain ⟨regards, early⟩ := h.regards_of_reads reads
  obtain ⟨quiet, ⟨called, ht, hn⟩ | ⟨uncalled, ht, hn⟩⟩ :=
    h.acts.of_foreign hforeign (by rw [member]; nofun) early admitted regards
  · have hafter := h.node_after_of_goTo ht quiet (Or.inr rfl)
    rw [hn] at hafter
    have hstate : x.after.node.state = .requesting := by rw [hafter]
    exact ⟨quiet, iff_of_true hstate called, fun _ => by rw [hafter]; rfl,
      fun hother => absurd hstate hother⟩
  · have hafter := h.node_after_of_goTo ht quiet (Or.inl (by rw [hn]))
    have hmoved : x.before.node.Unmoved x.after.node := by
      rw [hafter, hn]
      rfl
    have hstate : x.after.node.state ≠ .requesting := by
      rw [hafter]
      intro hs
      simp [Node.awaited?, show x.before.node.state = .requesting from hs] at early
    exact ⟨quiet, iff_of_false hstate uncalled, fun hs => absurd hs hstate, fun _ => hmoved⟩

/-- What node 1 does when it holds the token and node 2 offers it the token of another network. -/
def strayOffer? : Option (Moment Beacon) :=
  (Station.played? ⟨1⟩ [
    (.zero, []),
    (.zero, [⟨some ⟨2⟩, ⟨1⟩, (Message.joinAck ⟨1⟩ ⟨7⟩ 5 true [⟨1⟩, ⟨2⟩]).encode⟩]),
    (.zero, []),
    (.zero, [⟨some ⟨2⟩, .everyone, (Message.turn ⟨1⟩ ⟨8⟩ 6).encode⟩])]).bind fun p => p.2.1[3]?

theorem isSome_strayOffer? : strayOffer?.isSome = true := by decide

def strayOffer : Moment Beacon := strayOffer?.get isSome_strayOffer?

theorem happens_strayOffer : strayOffer.before.Reachable ∧ strayOffer.Happens :=
  Station.happens_of_played? (Option.some_get isSome_strayOffer?).symm

/-- The offer, as node 1 hears it. -/
def offerFromAfar : Inbound :=
  ⟨⟨2⟩, .everyone, .turn ⟨1⟩ ⟨8⟩ 6, (Message.turn ⟨1⟩ ⟨8⟩ 6).encode⟩

/-- **Node 1 leaves for the token of another network while it listens**, and goes on with its turn
while it holds the token. -/
theorem networks_isolated_of_two :
    (callAway.before.node.state = .listening ∧ callAway.after.node.state = .requesting ∧
      callAway.after.node.rounds = {}) ∧
    strayOffer.before.node.state = .awaitingEcho ∧ strayOffer.reaction.emission = none ∧
      strayOffer.before.node.Unmoved strayOffer.after.node := by
  have member : callAway.before.node.session = some ⟨7⟩ := by decide
  have member' : strayOffer.before.node.session = some ⟨7⟩ := by decide
  have reads : callAway.Reads offerFromAfar := Or.inl (by decide)
  have reads' : strayOffer.Reads offerFromAfar := Or.inl (by decide)
  obtain ⟨-, called, leaves, -⟩ :=
    networks_isolated happens_callAway.2 member (by decide) reads rfl (by decide)
  obtain ⟨quiet, -, -, stays⟩ :=
    networks_isolated happens_strayOffer.2 member' (by decide) reads' rfl (by decide)
  have away := called.2 (Or.inl ⟨by decide, _, _, rfl⟩)
  exact ⟨⟨by decide, away, by rw [leaves away]⟩, by decide, quiet, stays (by decide)⟩

end RadioRing
