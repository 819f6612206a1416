import RadioRing.Proofs.Rules

/-!
# Proofs/Acts — everything a node can do in one step

`Node.Acts` lists the acts of a node, each with the state that it belongs to, what has to be the
case, what becomes of the node, the frame it asks to send and where it goes.  What is left out is
what no act depends on: the remarks, and what the application makes of a payload.  **Every step is
one of these acts** (`acts_of_react`), so a fact about all steps is a case for each act.
-/

namespace RadioRing

namespace State

/-- Whether a node in this state waits for the moment to answer somebody. -/
def isReplying : State → Bool
  | admitting _ | acknowledging .. => true
  | _ => false

/-- The states in which a node is master: its turn goes on, or its offer waits. -/
def isMaster : State → Bool
  | awaitingEcho | repeating | offering | awaitingTaker _ => true
  | _ => false

/-- A node that is about to answer somebody is not master. -/
theorem isMaster_of_isReplying {s : State} (h : s.isReplying = true) : s.isMaster = false := by
  cases s <;> first | rfl | exact absurd h nofun

/-- Whether a node in this state waits for a message. -/
def isWaiting : State → Bool
  | awaitingAdmission | alone | listening | awaitingEcho | awaitingTaker _ => true
  | _ => false

end State

namespace Node

/-- The message that a step looks at: a listener looks first at one that was put aside. -/
def regards (n : Node) (heard : Option Inbound) : Option Inbound :=
  if n.state = .listening then n.deferred.or heard else heard

theorem regards_of_ne_listening {n : Node} (h : n.state ≠ .listening) (heard : Option Inbound) :
    n.regards heard = heard := if_neg h

theorem regards_of_listening {n : Node} (h : n.state = .listening) (heard : Option Inbound) :
    n.regards heard = n.deferred.or heard := if_pos h

/-! ## What is made of a message -/

/-- What a listener makes of the message `m`. -/
inductive ListenerHears (n : Node) (m : Inbound) : Node → Option Emission → Transition → Prop
  | payload {round : UInt32} {lastDelivered : Option (Address × Bytes)}
      (message : m.Carries round) :
      ListenerHears n m { n with presumedHolder := some m.sender, lastDelivered } none
        ((Transition.goTo (.acknowledging m.sender m.raw)).withMarks (n.readmission m))
  | calledAway {session : Session} {round : UInt32}
      (message : m.message = .turn n.own session round) (foreign : n.session ≠ some session) :
      ListenerHears n m n.leave none (.goTo .requesting)
  | foreignOffer {target : Address} {session : Session} {round : UInt32}
      (message : m.message = .turn target session round) (foreign : n.session ≠ some session)
      (other : target ≠ n.own) :
      ListenerHears n m n none (.goTo .listening)
  | offerToOther {target : Address} {session : Session} {round : UInt32}
      (message : m.message = .turn target session round) (same : n.session = some session)
      (other : target ≠ n.own) :
      ListenerHears n m
        { n with
          presumedHolder := if n.rounds.seen ≤ round then some target else n.presumedHolder
          rounds := n.rounds.observe round }
        none ((Transition.goTo .listening).withMarks (n.readmission m))
  | takes {session : Session} {round : UInt32} (message : m.message = .turn n.own session round)
      (same : n.session = some session) (fresh : n.rounds.isFresh round = true) :
      ListenerHears n m
        { n with rounds := n.rounds.accept round, presumedHolder := some n.own }
        none ((Transition.goTo (.accepting m.sender m.raw)).withMarks (n.readmission m))
  | declines {session : Session} {round : UInt32}
      (message : m.message = .turn n.own session round) (same : n.session = some session)
      (stale : n.rounds.isFresh round = false) :
      ListenerHears n m n (some (.ack m.sender m.raw))
        ((Transition.goTo .listening).withMarks (n.readmission m))
  | asked {joiner : Address} (message : m.message = .joinRequest joiner)
      (member : n.session.isSome = true) :
      ListenerHears n m n none
        ((Transition.goTo (.admitting joiner)).withMarks (n.readmission m))
  | learns {target : Address} {session : Session} {round : UInt32} {handsOver : Bool}
      {members : List Address}
      (message : m.message = .joinAck target session round handsOver members)
      (same : n.session = some session) (other : target ≠ n.own) :
      ListenerHears n m { n with rounds := n.rounds.observe round } none
        (((Transition.goTo .listening).withMarks (n.readmission m)).mark target true)
  | ignores (message : m.message.tag = .ack ∨ m.message.tag = .joinAck ∨
        m.message.tag = .joinRequest ∧ n.session = none) :
      ListenerHears n m n none ((Transition.goTo .listening).withMarks (n.readmission m))

/-- What a lone node makes of the message `m`. -/
inductive LoneHears (n : Node) (m : Inbound) : Node → Option Emission → Transition → Prop
  | asked {joiner : Address} (message : m.message = .joinRequest joiner) :
      LoneHears n m n none (.goTo (.admitting joiner))
  | rejoins (message : (∃ round, m.Carries round) ∨ ∃ target session round,
        m.message = .turn target session round ∧ (target ≠ n.own ∨ n.session ≠ some session)) :
      LoneHears n m n.leave none (.goTo .requesting)
  | takes {session : Session} {round : UInt32} (message : m.message = .turn n.own session round)
      (same : n.session = some session) (fresh : n.rounds.isFresh round = true) :
      LoneHears n m { n with rounds := n.rounds.accept round, presumedHolder := some n.own } none
        ((Transition.goTo (.accepting m.sender m.raw)).mark m.sender true)
  | declines {session : Session} {round : UInt32}
      (message : m.message = .turn n.own session round) (same : n.session = some session)
      (stale : n.rounds.isFresh round = false) :
      LoneHears n m n (some (.ack m.sender m.raw))
        ((Transition.goTo .alone).mark m.sender true)
  | ignores (message : m.message.tag = .ack ∨ m.message.tag = .joinAck) :
      LoneHears n m n none (.goTo .alone)

/-- What a holder makes of the message `m` while it waits for its echo. -/
inductive HolderHears (n : Node) (m : Inbound) : Node → Option Emission → Transition → Prop
  | echoed {echo : Bytes} (message : m.message = .ack echo) (meant : m.dest = n.own)
      (echoes : echoes echo n.rounds.held n.outgoing = true) :
      HolderHears n m { n with stats.payloadsEchoed := n.stats.payloadsEchoed + 1 } none
        ((Transition.goTo .offering).withMarks (n.readmission m))
  | garbled {echo : Bytes} (message : m.message = .ack echo) (meant : m.dest = n.own)
      (echoes : echoes echo n.rounds.held n.outgoing = false)
      (payload : startsAsPayload echo = true) :
      HolderHears n m n none ((Transition.goTo .repeating).withMarks (n.readmission m))
  | offered {session : Session} {round : UInt32} (message : m.message = .turn n.own session round)
      (same : n.session = some session) :
      HolderHears n m { n with rounds := n.rounds.accept round } (some (.ack m.sender m.raw))
        ((Transition.goTo .awaitingEcho).withMarks (n.readmission m))
  | yields (message :
        (∃ target session round, m.message = .turn target session round ∧
          n.session = some session ∧ target ≠ n.own ∧ n.rounds.held < round) ∨
        ∃ round, m.Carries round ∧ n.table.isEligible m.sender = true ∧
          n.outranked round m.sender = true) :
      HolderHears n m
        { n with
          master := false
          stats.tokensYielded := n.stats.tokensYielded + 1
          deferred := some m }
        none ((Transition.goTo .listening).withMarks (n.readmission m))
  | stays :
      HolderHears n m n none ((Transition.goTo .awaitingEcho).withMarks (n.readmission m))

/-- What a giver makes of the message `m` while its offer to `taker` waits. -/
inductive GiverHears (n : Node) (taker : Address) (m : Inbound) :
    Node → Option Emission → Transition → Prop
  | waits (verdict : n.judge taker m = .pending) :
      GiverHears n taker m n none
        ((Transition.goTo (.awaitingTaker taker)).withMarks (n.readmission m))
  | releases (verdict : n.judge taker m = .outdated) :
      GiverHears n taker m n (some (.ack m.sender m.raw))
        ((Transition.goTo (.awaitingTaker taker)).withMarks (n.readmission m))
  | handsOff (verdict : n.judge taker m = .acknowledged) :
      GiverHears n taker m
        { n with
          master := false
          offer := none
          deferred := some m
          presumedHolder := some taker
          stats.turnsHandedOff := n.stats.turnsHandedOff + 1 }
        none ((Transition.goTo .listening).withMarks (n.readmission m))
  | drops (verdict : n.judge taker m = .superseded) :
      GiverHears n taker m
        { n with
          master := false
          offer := none
          deferred := some m
          stats.tokensYielded := n.stats.tokensYielded + 1 }
        none ((Transition.goTo .listening).withMarks (n.readmission m))

variable {α : Type} {n : Node} {m : Inbound}

/-- **A listener makes one of these things of a message**, whatever the application thinks of it. -/
theorem listenerHears [Application α] (n : Node) (app : α) (m : Inbound) :
    n.ListenerHears m (n.hearAsListener app m).node (n.hearAsListener app m).emission
      (n.hearAsListener app m).transition := by
  unfold hearAsListener
  cases hm : m.message with
  | data round body =>
    obtain ⟨delivered, app', events, he⟩ := n.hearPayload_eq app m body false
    dsimp only
    rw [he]
    exact .payload ⟨body, Or.inl hm⟩
  | retry round body =>
    obtain ⟨delivered, app', events, he⟩ := n.hearPayload_eq app m body true
    dsimp only
    rw [he]
    exact .payload ⟨body, Or.inr hm⟩
  | ack echo => exact .ignores (Or.inl (congrArg Message.tag hm))
  | turn target session round =>
    dsimp only
    unfold hearOffer
    split
    · split
      · rename_i hforeign htarget
        exact .calledAway (htarget ▸ hm) hforeign
      · exact .foreignOffer hm ‹_› ‹_›
    · rename_i hsame
      rw [ne_eq, Decidable.not_not] at hsame
      split
      · exact .offerToOther hm hsame ‹_›
      · rename_i htarget
        rw [ne_eq, Decidable.not_not] at htarget
        split
        · exact .takes (htarget ▸ hm) hsame ‹_›
        · exact .declines (htarget ▸ hm) hsame (Bool.eq_false_iff.2 ‹_›)
  | joinRequest joiner =>
    dsimp only
    split
    · exact .asked hm ‹_›
    · rename_i hnone
      exact .ignores (Or.inr (Or.inr ⟨congrArg Message.tag hm,
        Option.not_isSome_iff_eq_none.1 hnone⟩))
  | joinAck target session round handsOver members =>
    dsimp only
    split
    · rename_i hours
      exact .learns hm hours.1 hours.2
    · exact .ignores (Or.inr (Or.inl (congrArg Message.tag hm)))

theorem loneHears (n : Node) (app : α) (m : Inbound) :
    n.LoneHears m (n.hearAlone app m).node (n.hearAlone app m).emission
      (n.hearAlone app m).transition := by
  unfold hearAlone
  cases hm : m.message with
  | data round body => exact .rejoins (Or.inl ⟨round, body, Or.inl hm⟩)
  | retry round body => exact .rejoins (Or.inl ⟨round, body, Or.inr hm⟩)
  | ack echo => exact .ignores (Or.inl (congrArg Message.tag hm))
  | turn target session round =>
    dsimp only
    split
    · exact .rejoins (Or.inr ⟨target, session, round, hm, ‹_›⟩)
    · rename_i hours
      rw [not_or, ne_eq, ne_eq, Decidable.not_not, Decidable.not_not] at hours
      split
      · exact .takes (hours.1 ▸ hm) hours.2 ‹_›
      · exact .declines (hours.1 ▸ hm) hours.2 (Bool.eq_false_iff.2 ‹_›)
  | joinRequest joiner => exact .asked hm
  | joinAck target session round handsOver members =>
    exact .ignores (Or.inr (congrArg Message.tag hm))

theorem holderHears (n : Node) (app : α) (m : Inbound) :
    n.HolderHears m (n.hearAsHolder app m).node (n.hearAsHolder app m).emission
      (n.hearAsHolder app m).transition := by
  unfold hearAsHolder
  cases hm : m.message with
  | data round body =>
    dsimp only
    split
    · exact .yields (Or.inr ⟨round, ⟨body, Or.inl hm⟩, ‹_›⟩)
    · exact .stays
  | retry round body =>
    dsimp only
    split
    · exact .yields (Or.inr ⟨round, ⟨body, Or.inr hm⟩, ‹_›⟩)
    · exact .stays
  | ack echo =>
    dsimp only
    split
    · exact .stays
    · rename_i hmeant
      rw [ne_eq, Decidable.not_not] at hmeant
      split
      · exact .echoed hm hmeant ‹_›
      · split
        · exact .garbled hm hmeant (Bool.eq_false_iff.2 ‹_›) ‹_›
        · exact .stays
  | turn target session round =>
    dsimp only
    split
    · exact .stays
    · rename_i hsame
      rw [ne_eq, Decidable.not_not] at hsame
      split
      · rename_i htarget
        exact .offered (htarget ▸ hm) hsame
      · split
        · exact .yields (Or.inl ⟨target, session, round, hm, hsame, ‹_›, ‹_›⟩)
        · exact .stays
  | joinRequest | joinAck => exact .stays

/-- A giver makes one of these things of a message; what the message is to its offer decides
which. -/
theorem giverHears (n : Node) (app : α) (taker : Address) (m : Inbound) :
    n.GiverHears taker m (n.hearAsGiver app taker m).node (n.hearAsGiver app taker m).emission
      (n.hearAsGiver app taker m).transition := by
  unfold hearAsGiver
  cases hj : n.judge taker m with
  | pending => exact .waits hj
  | outdated => exact .releases hj
  | acknowledged => exact .handsOff hj
  | superseded => exact .drops hj

/-! ## What is done in one step -/

/-- **Everything a node can do in one step**, in the order of the states that it belongs to. -/
inductive Acts (n : Node) (clock : Readings) (heard : Option Inbound) :
    Node → Option Emission → Transition → Prop
  | asks {wait : Duration} {random : Random.Stream} (state : n.state = .requesting) :
      Acts n clock heard { n with timers.joinResend := .after clock.start wait, random }
        (some (.toAll (.joinRequest n.own))) (.goTo .awaitingAdmission)
  | asksAgain (state : n.state = .awaitingAdmission)
      (due : n.timers.joinResend.elapsed clock.start = true)
      (left : n.joinRetries < n.settings.joinRetryLimit.toNat) :
      Acts n clock heard { n with joinRetries := n.joinRetries + 1 } none (.goTo .requesting)
  | stopsAsking (state : n.state = .awaitingAdmission)
      (due : n.timers.joinResend.elapsed clock.start = true)
      (spent : n.settings.joinRetryLimit.toNat ≤ n.joinRetries) :
      Acts n clock heard n none (.goTo .founding)
  | joins {m : Inbound} {session : Session} {round : UInt32} {handsOver : Bool}
      {members : List Address} (state : n.state = .awaitingAdmission) (hears : heard = some m)
      (message : m.message = .joinAck n.own session round handsOver members) :
      Acts n clock heard (n.adopt session round handsOver m.sender) none
        (((Transition.goTo (if handsOver then .speaking else .listening)).mark n.own true
          |>.mark m.sender true).withMarks (members.map (⟨·, true⟩)))
  | founds {word : UInt32} {random : Random.Stream} (state : n.state = .founding) :
      Acts n clock heard
        { n with
          session := some (.ofWord word)
          joinRetries := 0
          master := false
          presumedHolder := none
          rounds := {}
          random }
        none ((Transition.goTo .alone).mark n.own true)
  | waitsToReply (state : n.state.isReplying = true)
      (early : n.timers.reply.elapsed clock.start = false) :
      Acts n clock heard
        { n with
          deferred := n.deferred.or heard
          stats.framesDropped :=
            n.stats.framesDropped + if n.deferred.isSome && heard.isSome then 1 else 0 }
        none (.goTo n.state)
  | forgets {joiner : Address} (state : n.state = .admitting joiner) (outside : n.session = none) :
      Acts n clock heard n none (.goTo .listening)
  | admits {joiner : Address} {session : Session} (state : n.state = .admitting joiner)
      (due : n.timers.reply.elapsed clock.start = true) (member : n.session = some session) :
      Acts n clock heard (if n.table.anyBesides [n.own, joiner] then n else n.letGoTo joiner)
        (some (.toAll (n.answerFor session joiner) .admission))
        (((Transition.goTo .listening).mark n.own true).mark joiner true)
  | rescans (state : n.state = .alone) (due : n.timers.rescan.elapsed clock.start = true) :
      Acts n clock heard n.leave none (.goTo .requesting)
  | hearsAlone {m : Inbound} {n' : Node} {e : Option Emission} {t : Transition}
      (state : n.state = .alone) (early : n.timers.rescan.elapsed clock.start = false)
      (hears : heard = some m) (makes : n.LoneHears m n' e t) :
      Acts n clock heard n' e t
  | claimsUnopposed (state : n.state = .listening)
      (due : n.timers.watchdog.elapsed clock.start = true) (nobody : n.presumedDead? = none) :
      Acts n clock heard
        { n with
          stats.watchdogFires := n.stats.watchdogFires + 1
          rounds := n.rounds.claim }
        none (.goTo .speaking)
  | claims {dead : Address} (state : n.state = .listening)
      (due : n.timers.watchdog.elapsed clock.start = true) (presumed : n.presumedDead? = some dead)
      (next : ∀ next ∈ n.table.successor dead, next = n.own) :
      Acts n clock heard
        { n with
          stats.watchdogFires := n.stats.watchdogFires + 1
          rounds := n.rounds.claim }
        none ((Transition.goTo .speaking).mark dead false)
  | passesOver {dead next : Address} (state : n.state = .listening)
      (due : n.timers.watchdog.elapsed clock.start = true) (presumed : n.presumedDead? = some dead)
      (next_eq : n.table.successor dead = some next) (other : next ≠ n.own) :
      Acts n clock heard
        { n with
          stats.watchdogFires := n.stats.watchdogFires + 1
          presumedHolder := some next
          timers.watchdog := .after clock.start n.settings.timings.watchdog }
        none ((Transition.goTo .listening).mark dead false)
  | hearsListening {m : Inbound} {n' : Node} {e : Option Emission} {t : Transition}
      (state : n.state = .listening) (early : n.timers.watchdog.elapsed clock.start = false)
      (hears : n.deferred.or heard = some m)
      (makes : (n.awake clock.heard).ListenerHears m n' e t) :
      Acts n clock heard n' e t
  | acknowledges {holder : Address} {echo : Bytes} (state : n.state = .acknowledging holder echo)
      (due : n.timers.reply.elapsed clock.start = true) :
      Acts n clock heard n (some (.ack holder echo)) (.goTo .listening)
  | accepts {giver : Address} {echo : Bytes} (state : n.state = .accepting giver echo) :
      Acts n clock heard n (some (.ack giver echo)) (.goTo .speaking)
  | speaks {body : Bytes} (state : n.state = .speaking) :
      Acts n clock heard
        { n with
          timers.turn := .after clock.start n.settings.timings.turn
          timers.retry := .after clock.start n.settings.timings.retry
          master := true
          stats.turnsTaken := n.stats.turnsTaken + 1
          deferred := none
          offer := none
          outgoing := body }
        (some (.toAll (.data n.rounds.held body))) (.goTo .awaitingEcho)
  | endsTurn (state : n.state = .awaitingEcho ∨ n.state = .repeating)
      (due : n.timers.turn.elapsed clock.start = true) :
      Acts n clock heard n none (.goTo .offering)
  | turnsToRepeat (state : n.state = .awaitingEcho)
      (early : n.timers.turn.elapsed clock.start = false)
      (due : n.timers.retry.elapsed clock.start = true) :
      Acts n clock heard n none (.goTo .repeating)
  | hearsHolding {m : Inbound} {n' : Node} {e : Option Emission} {t : Transition}
      (state : n.state = .awaitingEcho) (early : n.timers.turn.elapsed clock.start = false)
      (soon : n.timers.retry.elapsed clock.start = false) (hears : heard = some m)
      (makes : n.HolderHears m n' e t) :
      Acts n clock heard n' e t
  | repeats (state : n.state = .repeating) (early : n.timers.turn.elapsed clock.start = false) :
      Acts n clock heard
        { n with timers.retry := .after clock.start n.settings.timings.retry }
        (some (.toAll (.retry n.rounds.held n.outgoing) .repetition)) (.goTo .awaitingEcho)
  | strays (state : n.state = .offering) (outside : n.session = none) :
      Acts n clock heard n.leave none (.goTo .requesting)
  | findsNobody (state : n.state = .offering) (nobody : n.table.successor n.own = none) :
      Acts n clock heard { n with master := false, offer := none } none (.goTo .alone)
  | offers {session : Session} {taker : Address} (state : n.state = .offering)
      (member : n.session = some session) (next : n.table.successor n.own = some taker) :
      Acts n clock heard
        { n with
          rounds := n.rounds.observe (n.offeredRound?.getD n.rounds.next)
          offer := some (.turn taker session (n.offeredRound?.getD n.rounds.next))
          offerRetries := 0
          timers.offerRetry := .after clock.start n.settings.timings.offerRetry }
        (some (.toAll (.turn taker session (n.offeredRound?.getD n.rounds.next))))
        (.goTo (.awaitingTaker taker))
  | offersAgain {taker : Address} (state : n.state = .awaitingTaker taker)
      (due : n.timers.offerRetry.elapsed clock.start = true)
      (left : n.offerRetries < n.settings.offerRetryLimit.toNat) :
      Acts n clock heard
        { n with
          offerRetries := n.offerRetries + 1
          timers.offerRetry := .after clock.start n.settings.timings.offerRetry }
        (n.offer.map (.toAll ·)) (.goTo (.awaitingTaker taker))
  | stopsOffering {taker : Address} (state : n.state = .awaitingTaker taker)
      (due : n.timers.offerRetry.elapsed clock.start = true)
      (spent : n.settings.offerRetryLimit.toNat ≤ n.offerRetries) :
      Acts n clock heard n none ((Transition.goTo .offering).mark taker false)
  | hearsGiving {taker : Address} {m : Inbound} {n' : Node} {e : Option Emission} {t : Transition}
      (state : n.state = .awaitingTaker taker)
      (early : n.timers.offerRetry.elapsed clock.start = false) (hears : heard = some m)
      (makes : n.GiverHears taker m n' e t) :
      Acts n clock heard n' e t
  | idles (state : n.state.isWaiting = true)
      (early : ∀ d ∈ n.awaited?, d.elapsed clock.start = false)
      (idle : ∀ m ∈ n.regards heard, n.state = .awaitingAdmission ∧
        ∀ session round handsOver members,
          m.message ≠ .joinAck n.own session round handsOver members) :
      Acts n clock heard n none (.goTo n.state)

variable {app : α} {clock : Readings} {heard : Option Inbound}

theorem acts_request {r : Reaction α} (hs : n.state = .requesting)
    (h : n.request app clock.start = .ok r) :
    n.Acts clock heard r.node r.emission r.transition := by
  obtain ⟨random, hj⟩ := snd_jitter n n.settings.timings.answerJitter
  simp only [request, hj] at h
  split at h
  · exact absurd h nofun
  · obtain rfl := Except.ok.inj h
    exact .asks hs

/-- A node that has asked joins, asks again, stops asking or goes on waiting. -/
theorem acts_awaitAdmission (hs : n.state = .awaitingAdmission) :
    let r := n.awaitAdmission app clock.start heard
    n.Acts clock heard r.node r.emission r.transition := by
  have idles (early : n.timers.joinResend.elapsed clock.start = false)
      (hidle : ∀ m ∈ heard, ∀ session round handsOver members,
        m.message ≠ .joinAck n.own session round handsOver members) :
      n.Acts clock heard n none (.goTo .awaitingAdmission) := by
    refine hs ▸ Acts.idles (by rw [hs]; rfl) ?_ fun m hm => ⟨hs, hidle m ?_⟩
    · simp [awaited?, hs, early]
    · rwa [regards_of_ne_listening (by rw [hs]; nofun)] at hm
  unfold awaitAdmission
  cases hd : n.timers.joinResend.elapsed clock.start with
  | true =>
    by_cases hspent : n.settings.joinRetryLimit.toNat ≤ n.joinRetries
    · simpa only [hspent, if_true] using Acts.stopsAsking hs hd hspent
    · simpa only [hspent, if_true, if_false] using Acts.asksAgain hs hd (Nat.not_le.1 hspent)
  | false =>
    simp only [Bool.false_eq_true, if_false]
    split
    · rename_i sender dest target session round handsOver members raw
      split
      · refine idles hd fun m hm _ _ _ _ he => ?_
        obtain rfl := Option.some.inj hm
        exact absurd (Message.joinAck.inj he).1 ‹_›
      · rename_i htarget
        rw [ne_eq, Decidable.not_not] at htarget
        subst htarget
        exact .joins hs rfl rfl
    · rename_i hother
      refine idles hd fun m hm session round handsOver members he => ?_
      obtain ⟨sender, dest, message, raw⟩ := m
      obtain rfl : message = _ := he
      exact hother _ _ _ _ _ _ _ _ hm

theorem acts_found (hs : n.state = .founding) :
    n.Acts clock heard (n.found app).node (n.found app).emission (n.found app).transition :=
  .founds hs

/-- A node that waits for the moment to answer puts aside what it hears. -/
theorem acts_reply {r : Reaction α} {s : State} (hs : n.state = s) (hr : s.isReplying = true)
    (early : n.timers.reply.elapsed clock.start = false)
    (node : r.node = heard.elim n fun m => (n.putAside m).1) (emission : r.emission = none)
    (transition : r.transition = .goTo s) : n.Acts clock heard r.node r.emission r.transition := by
  subst hs
  have hput : r.node = { n with
      deferred := n.deferred.or heard
      stats.framesDropped :=
        n.stats.framesDropped + if n.deferred.isSome && heard.isSome then 1 else 0 } := by
    rw [node]
    cases heard with
    | none => simp
    | some m => cases hd : n.deferred <;> simp [putAside, hd]
  rw [hput, emission, transition]
  exact .waitsToReply hr early

/-- A node that admits somebody answers when its delay is over, and waits until then. -/
theorem acts_admitting {joiner : Address} (hs : n.state = .admitting joiner) :
    let r := n.admitting app joiner clock.start heard
    n.Acts clock heard r.node r.emission r.transition := by
  unfold admitting
  cases hd : n.timers.reply.elapsed clock.start with
  | false => cases heard <;> exact acts_reply hs rfl hd rfl rfl rfl
  | true =>
    cases hsession : n.session with
    | none => exact .forgets hs hsession
    | some session =>
      simp only [not_true_eq_false, if_false, ite_not]
      exact .admits hs hd hsession

/-- A lone node searches when it is time, and else looks at what it hears. -/
theorem acts_waitAlone (hs : n.state = .alone) :
    let r := n.waitAlone app clock.start heard
    n.Acts clock heard r.node r.emission r.transition := by
  unfold waitAlone
  cases hd : n.timers.rescan.elapsed clock.start with
  | true => exact .rescans hs hd
  | false =>
    cases heard with
    | none =>
      refine hs ▸ Acts.idles (by rw [hs]; rfl) (by simp [awaited?, hs, hd]) ?_
      simp [regards_of_ne_listening, hs]
    | some m => exact .hearsAlone hs hd rfl (n.loneHears app m)

/-- A watchdog that runs out ends in a claim, or passes one address over. -/
theorem acts_fireWatchdog (hs : n.state = .listening)
    (hd : n.timers.watchdog.elapsed clock.start = true) :
    let r := n.fireWatchdog app clock.start
    n.Acts clock heard r.node r.emission r.transition := by
  unfold fireWatchdog fireWatchdog.claimAfter
  dsimp only
  split
  · rename_i hnobody
    exact .claimsUnopposed hs hd hnobody
  · rename_i dead hdead
    split
    · rename_i next hnext
      split
      · exact .passesOver hs hd hdead hnext ‹_›
      · rename_i hown
        refine .claims hs hd hdead fun x hx => ?_
        obtain rfl := Option.some.inj (hnext.symm.trans hx)
        exact Decidable.not_not.1 hown
    · rename_i hnone
      exact .claims hs hd hdead fun x hx => absurd (hnone.symm.trans hx) nofun

/-- A listener whose watchdog has run out looks at no message. -/
theorem acts_listen [Application α] (hs : n.state = .listening) :
    let r := n.listen app clock heard
    n.Acts clock heard r.node r.emission r.transition := by
  cases hd : n.timers.watchdog.elapsed clock.start with
  | true =>
    unfold listen
    rw [hd]
    exact acts_fireWatchdog hs hd
  | false =>
    rw [listen_eq app heard hd]
    cases hm : n.deferred.or heard with
    | none =>
      refine hs ▸ Acts.idles (by rw [hs]; rfl) (by simp [awaited?, hs, hd]) ?_
      simp [regards_of_listening hs, hm]
    | some m => exact .hearsListening hs hd hm (listenerHears _ app m)

theorem acts_acknowledge {holder : Address} {echo : Bytes}
    (hs : n.state = .acknowledging holder echo) :
    let r := n.acknowledge app holder echo clock.start heard
    n.Acts clock heard r.node r.emission r.transition := by
  unfold acknowledge
  cases hd : n.timers.reply.elapsed clock.start with
  | false => cases heard <;> exact acts_reply hs rfl hd rfl rfl rfl
  | true => exact .acknowledges hs hd

/-- A holder lets its turn end, repeats its payload, or looks at what it hears: in this order. -/
theorem acts_awaitEcho (hs : n.state = .awaitingEcho) :
    let r := n.awaitEcho app clock.start heard
    n.Acts clock heard r.node r.emission r.transition := by
  unfold awaitEcho
  cases ht : n.timers.turn.elapsed clock.start with
  | true => exact .endsTurn (Or.inl hs) ht
  | false =>
    cases hd : n.timers.retry.elapsed clock.start with
    | true => exact .turnsToRepeat hs ht hd
    | false =>
      cases heard with
      | none =>
        refine hs ▸ Acts.idles (by rw [hs]; rfl) ?_ ?_
        · simp only [awaited?, hs, Deadline.earlier, Option.mem_some_iff, forall_eq']
          split <;> assumption
        · simp [regards_of_ne_listening, hs]
      | some m => exact .hearsHolding hs ht hd rfl (n.holderHears app m)

theorem acts_repeatPayload (hs : n.state = .repeating) :
    let r := n.repeatPayload app clock.start
    n.Acts clock heard r.node r.emission r.transition := by
  unfold repeatPayload
  cases ht : n.timers.turn.elapsed clock.start with
  | true => exact .endsTurn (Or.inr hs) ht
  | false => exact .repeats hs ht

theorem acts_offerToken (hs : n.state = .offering) :
    let r := n.offerToken app clock.start
    n.Acts clock heard r.node r.emission r.transition := by
  unfold offerToken
  split
  · exact .strays hs ‹_›
  · split
    · exact .findsNobody hs ‹_›
    · exact .offers hs ‹_› ‹_›

/-- A giver offers again or gives the taker up when it is time, and else looks at what it hears. -/
theorem acts_awaitTaker {taker : Address} (hs : n.state = .awaitingTaker taker) :
    let r := n.awaitTaker app taker clock.start heard
    n.Acts clock heard r.node r.emission r.transition := by
  unfold awaitTaker
  cases hd : n.timers.offerRetry.elapsed clock.start with
  | true =>
    by_cases hspent : n.settings.offerRetryLimit.toNat ≤ n.offerRetries
    · simpa only [hspent, if_true] using Acts.stopsOffering hs hd hspent
    · simpa only [hspent, if_true, if_false] using Acts.offersAgain hs hd (Nat.not_le.1 hspent)
  | false =>
    cases heard with
    | none =>
      refine hs ▸ Acts.idles (by rw [hs]; rfl) (by simp [awaited?, hs, hd]) ?_
      simp [regards_of_ne_listening, hs]
    | some m => exact .hearsGiving hs hd rfl (n.giverHears app taker m)

/-- **Every step of a node is one of its acts.** -/
theorem acts_of_react [Application α] {r : Reaction α} (h : n.react app clock heard = .ok r) :
    n.Acts clock heard r.node r.emission r.transition := by
  unfold react at h
  split at h
  · exact acts_request ‹_› h
  all_goals obtain rfl := Except.ok.inj h
  · exact acts_awaitAdmission ‹_›
  · exact acts_found ‹_›
  · exact acts_admitting ‹_›
  · exact acts_waitAlone ‹_›
  · exact acts_listen ‹_›
  · exact acts_acknowledge ‹_›
  · exact .accepts ‹_›
  · exact .speaks ‹_›
  · exact acts_awaitEcho ‹_›
  · exact acts_repeatPayload ‹_›
  · exact acts_offerToken ‹_›
  · exact acts_awaitTaker ‹_›

/-! ## What no act touches -/

variable {n' : Node} {e : Option Emission} {t : Transition}

/-- No rule touches the settings, the table or the state: the table changes by the marks of a
transition only, and the state by its goal. -/
theorem Acts.untouched (h : n.Acts clock heard n' e t) :
    n'.settings = n.settings ∧ n'.table = n.table ∧ n'.state = n.state := by
  cases h with
  | admits => split <;> exact ⟨rfl, rfl, rfl⟩
  | hearsAlone _ _ _ makes => cases makes <;> exact ⟨rfl, rfl, rfl⟩
  | hearsListening _ _ _ makes => cases makes <;> exact ⟨rfl, rfl, rfl⟩
  | hearsHolding _ _ _ _ makes => cases makes <;> exact ⟨rfl, rfl, rfl⟩
  | hearsGiving _ _ _ makes => cases makes <;> exact ⟨rfl, rfl, rfl⟩
  | _ => exact ⟨rfl, rfl, rfl⟩

theorem Acts.settings_eq (h : n.Acts clock heard n' e t) : n'.settings = n.settings :=
  h.untouched.1

theorem Acts.table_eq (h : n.Acts clock heard n' e t) : n'.table = n.table := h.untouched.2.1

theorem Acts.state_eq (h : n.Acts clock heard n' e t) : n'.state = n.state := h.untouched.2.2

end Node

end RadioRing
