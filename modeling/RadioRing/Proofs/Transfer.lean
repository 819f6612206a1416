import RadioRing.Proofs.Exchange
import RadioRing.Proofs.Mastership

/-!
# Proofs/Transfer — an offer that is heard, and its acknowledgement

A node offers the token to its successor, the successor hears the offer and answers, and the answer
reaches the giver before any deadline.  The giver then lets go of the token in any case, and **the
successor has taken it unless it has already held the last round of all** (`token_transferred_iff`):
no token is newer than that one, so the offer is taken for an outdated one and acknowledged, and the
token is gone.
-/

namespace RadioRing

variable {α : Type}

/-- **Minting falls short of nobody who knows less**, unless that one has held the last round. -/
theorem Rounds.isFresh_next_iff {giver taker : Rounds} (sound : giver.held.toNat ≤ giver.seen.toNat)
    (held : taker.held.toNat ≤ giver.seen.toNat) (seen : taker.seen.toNat ≤ giver.seen.toNat) :
    taker.isFresh giver.next = true ↔ taker.held ≠ 4294967295 := by
  have htop : giver.top = giver.seen.toNat := Nat.max_eq_right sound
  have hlast : taker.held = 4294967295 ↔ taker.held.toNat = lastRound := UInt32.toNat_inj.symm
  have hheld := toNat_le_lastRound taker.held
  rw [isFresh_iff, ne_eq, hlast]
  rcases Nat.lt_or_eq_of_le giver.top_le_lastRound with h | h
  · rw [toNat_next h]
    omega
  · rw [toNat_next_last h]
    omega

namespace Node

variable {n : Node} {app : α} {m : Inbound} {session : Session} {round : UInt32}

/-- The first offer of a node is the one of the next round. -/
theorem offerToken_eq {start : Timestamp} {taker : Address} (unoffered : n.offer = none)
    (member : n.session = some session) (next : n.table.successor n.own = some taker) :
    n.offerToken app start =
      { node := { n with
          rounds := n.rounds.observe n.rounds.next
          offer := some (.turn taker session n.rounds.next)
          offerRetries := 0
          timers.offerRetry := .after start n.settings.timings.offerRetry }
        app
        emission := some (.toAll (.turn taker session n.rounds.next))
        after := [.tokenOffered taker n.rounds.next]
        transition := .goTo (.awaitingTaker taker) } := by
  unfold offerToken
  simp only [member, next, offeredRound?, unoffered]
  rfl

/-- **A listener takes a fresh token of its network that is offered to it, and declines any other
one.** -/
theorem hearAsListener_offer [Application α] (n : Node) (app : α)
    (message : m.message = .turn n.own session round)
    (same : n.session = some session) : n.hearAsListener app m =
      if n.rounds.isFresh round then
        { node := { n with rounds := n.rounds.accept round, presumedHolder := some n.own }
          app
          transition :=
            (Transition.goTo (.accepting m.sender m.raw)).withMarks (n.readmission m) }
      else
        { node := n
          app
          before := [.outdatedToken m.sender round n.rounds.held]
          emission := some (.ack m.sender m.raw)
          transition := (Transition.goTo .listening).withMarks (n.readmission m) } := by
  unfold hearAsListener hearOffer
  simp only [message, same, ne_eq, not_true_eq_false, if_false]

/-- The acknowledgement of its offer, from the one it is made to, ends the wait of a giver. -/
theorem awaitTaker_eq {start : Timestamp} {taker dest : Address} {offer : Message} {raw : Bytes}
    (early : n.timers.offerRetry.elapsed start = false) (offered : n.offer = some offer) :
    let m : Inbound := ⟨taker, dest, .ack offer.encode, raw⟩
    n.awaitTaker app taker start (some m) =
      { node := { n with
          master := false
          offer := none
          deferred := some m
          presumedHolder := some taker
          stats.turnsHandedOff := n.stats.turnsHandedOff + 1 }
        app
        before := [.handedOff taker]
        transition := (Transition.goTo .listening).withMarks (n.readmission m) } := by
  have hverdict : n.judge taker ⟨taker, dest, .ack offer.encode, raw⟩ = .acknowledged := by
    simp [judge, offered]
  unfold awaitTaker
  simp only [early, Bool.false_eq_true, if_false, hearAsGiver, hverdict]

end Node

variable [Application α]

namespace Moment

variable {x y : Moment α}

/-- **What becomes of an offer that a listener hears**: it takes a fresh token, and acknowledges any
other one at once. -/
theorem Happens.of_offer (hx : x.Happens) {m : Inbound} {session : Session} {round : UInt32}
    (listening : x.before.node.state = .listening)
    (early : x.before.node.timers.watchdog.elapsed x.clock.start = false) (regards : x.Regards m)
    (message : m.message = .turn x.before.node.own session round)
    (same : x.before.node.session = some session) :
    if x.before.node.rounds.isFresh round then
      x.reaction.emission = none ∧ x.after.node.state = .accepting m.sender m.raw ∧
        x.after.node.rounds = x.before.node.rounds.accept round
    else
      x.reaction.emission = some (.ack m.sender m.raw) ∧ x.after.node.state = .listening ∧
        x.after.node.rounds = x.before.node.rounds := by
  have hr := hx.reaction_of_listening listening early regards
  rw [(x.before.node.awake x.clock.heard).hearAsListener_offer x.before.app message same] at hr
  rw [hx.state_after, hx.rounds_after, hr]
  change if (x.before.node.awake x.clock.heard).rounds.isFresh round = true then _ else _
  split <;> exact ⟨rfl, rfl, rfl⟩

/-- The token that was taken is acknowledged in the next step, and the turn begins. -/
theorem Happens.of_state_accepting (hx : x.Happens) {giver : Address} {echo : Bytes}
    (state : x.before.node.state = .accepting giver echo) :
    x.reaction.emission = some (.ack giver echo) ∧ x.after.node.state = .speaking ∧
      x.after.node.rounds = x.before.node.rounds := by
  have hr : x.reaction = x.before.node.acceptToken x.before.app giver echo := by
    refine hx.reaction_eq ?_
    unfold Node.react
    rw [state]
  rw [hx.state_after, hx.rounds_after, hr]
  exact ⟨rfl, rfl, rfl⟩

/-- The acknowledgement of its offer, from the one it was made to, frees a giver. -/
theorem Happens.of_answer (hx : x.Happens) {taker dest : Address} {offer : Message} {raw : Bytes}
    (state : x.before.node.state = .awaitingTaker taker)
    (early : x.before.node.timers.offerRetry.elapsed x.clock.start = false)
    (offered : x.before.node.offer = some offer)
    (heard : x.heard = some ⟨taker, dest, .ack offer.encode, raw⟩) :
    x.after.node.state = .listening ∧ x.after.node.offer = none ∧
      x.after.node.presumedHolder = some taker ∧
      x.after.node.stats.turnsHandedOff = x.before.node.stats.turnsHandedOff + 1 := by
  have hr : x.reaction = x.before.node.awaitTaker x.before.app taker x.clock.start x.heard := by
    refine hx.reaction_eq ?_
    unfold Node.react
    rw [state]
  rw [heard, Node.awaitTaker_eq early offered] at hr
  rw [hx.turnsHandedOff_after, hx.presumedHolder_after, hx.state_after, hx.offer_after, hr]
  exact ⟨rfl, rfl, rfl, rfl⟩

/-- From the step `x` on, `y` is the first one that sends a frame. -/
def AnsweredIn (x y : Moment α) : Prop :=
  x = y ∨ x.reaction.emission = none ∧
    ∃ quiet, x.after.Run quiet y.before ∧ ∀ z ∈ quiet, z.reaction.emission = none

/-- After a silent step, the next one can be the answer. -/
theorem AnsweredIn.of_next (silent : x.reaction.emission = none) (next : y.before = x.after) :
    x.AnsweredIn y :=
  Or.inr ⟨silent, [], .of_eq next, List.forall_mem_nil _⟩

/-- A step that sends a frame is its own answer. -/
theorem AnsweredIn.eq_of_emission {e : Emission} (h : x.AnsweredIn y)
    (he : x.reaction.emission = some e) : y = x := by
  rcases h with rfl | ⟨hnone, -⟩
  · rfl
  · exact absurd (hnone.symm.trans he) nofun

/-- Whoever has taken a token says so before anything else. -/
theorem AnsweredIn.before_eq {e : Emission} {giver : Address} {echo : Bytes} (h : x.AnsweredIn y)
    (silent : x.reaction.emission = none) (he : y.reaction.emission = some e)
    (state : x.after.node.state = .accepting giver echo) : y.before = x.after := by
  rcases h with rfl | ⟨-, quiet, hrun, hquiet⟩
  · exact absurd (silent.symm.trans he) nofun
  · cases quiet with
    | nil => exact hrun.eq_of_nil
    | cons z rest =>
      obtain ⟨hz, happens, -⟩ := hrun.of_cons
      obtain ⟨hsaid, -⟩ := happens.of_state_accepting (hz ▸ state)
      exact absurd ((hquiet z List.mem_cons_self).symm.trans hsaid) nofun

/-- One station offers the token of its network to its successor in the step `offer`, the other one
hears it in the step `hears` and answers in the step `answer`, and the first one hears the answer in
the step `ends`.  Neither hears anything else, and no deadline passes. -/
structure HandsOver (session : Session) (offer hears answer ends : Moment α) : Prop where
  giver : offer.before.Reachable
  offering : offer.before.node.state = .offering
  unoffered : offer.before.node.offer = none
  member : offer.before.node.session = some session
  next : offer.before.node.table.successor offer.before.node.own = some hears.before.node.own
  taker : hears.before.Reachable
  listening : hears.before.node.state = .listening
  vacant : hears.before.node.deferred = none
  awake : hears.before.node.timers.watchdog.elapsed hears.clock.start = false
  same : hears.before.node.session = some session
  known : offer.before.node.own ∈ hears.before.node.settings.roster
  held : hears.before.node.rounds.held.toNat ≤ offer.before.node.rounds.seen.toNat
  seen : hears.before.node.rounds.seen.toNat ≤ offer.before.node.rounds.seen.toNat
  offers : offer.Happens
  offered : offer.Reaches hears
  hearing : hears.Happens
  answered : hears.AnsweredIn answer
  answers : answer.Happens
  waits : ∃ idle, offer.after.Run idle ends.before ∧ ∀ z ∈ idle, z.Idle
  returned : answer.Reaches ends
  patient : ends.before.node.timers.offerRetry.elapsed ends.clock.start = false
  ending : ends.Happens

namespace HandsOver

variable {session : Session} {offer hears answer ends : Moment α}

/-- What is offered. -/
def token (session : Session) (offer hears : Moment α) : Message :=
  .turn hears.before.node.own session offer.before.node.rounds.next

/-- The giver applies the rule for an offer. -/
theorem reaction_offer (h : HandsOver session offer hears answer ends) :
    offer.reaction = offer.before.node.offerToken offer.before.app offer.clock.start := by
  refine h.offers.reaction_eq ?_
  unfold Node.react
  rw [h.offering]

/-- **The giver offers the token of its next round to the other node**, for everybody to hear. -/
theorem emission_offer (h : HandsOver session offer hears answer ends) :
    offer.reaction.emission = some (.toAll (token session offer hears)) := by
  rw [h.reaction_offer, Node.offerToken_eq h.unoffered h.member h.next]
  rfl

/-- Both know each other, and the offer fits in a frame. -/
theorem ne_own (h : HandsOver session offer hears answer ends) :
    hears.before.node.own ≠ offer.before.node.own :=
  (Membership.successor_eq_some_iff.1 h.next).2.1

theorem mem_roster (h : HandsOver session offer hears answer ends) :
    hears.before.node.own ∈ offer.before.node.settings.roster :=
  (Station.sound_of_reachable h.giver).roster _
    (Membership.contains_of_isEligible (Membership.successor_eq_some_iff.1 h.next).1)

/-- The offer can be read back from its frame. -/
theorem wellFormed_token (h : HandsOver session offer hears answer ends) :
    (token session offer hears).WellFormed := by
  have hsound := Station.sound_of_reachable h.giver
  exact Message.wellFormed_turn (Settings.ne_everyone_of_check hsound.accepted h.mem_roster)
    (hsound.network session h.member)

/-- **The successor hears what is offered.** -/
theorem heard_offer (h : HandsOver session offer hears answer ends) :
    hears.heard = some ⟨offer.before.node.own, .everyone, token session offer hears,
      (token session offer hears).encode⟩ := by
  exact h.offered.heard_eq h.emission_offer h.ne_own.symm h.known (Or.inr rfl) h.wellFormed_token

/-- The successor takes the token: it is about to acknowledge it, and then begins its turn. -/
def Taken (session : Session) (offer hears answer : Moment α) : Prop :=
  (hears.after.node.state = .accepting offer.before.node.own (token session offer hears).encode ∧
    hears.after.node.rounds.held = offer.before.node.rounds.next) ∧
  answer.before = hears.after ∧ answer.after.node.state = .speaking ∧
    answer.after.node.rounds.held = offer.before.node.rounds.next

/-- The successor declines the token: it acknowledges it, and listens as before. -/
def Declined (hears answer : Moment α) : Prop :=
  answer = hears ∧ hears.after.node.state = .listening ∧
    hears.after.node.rounds = hears.before.node.rounds

/-- **A fresh token is taken and then acknowledged**, any other one is acknowledged at once. -/
theorem of_hears (h : HandsOver session offer hears answer ends) :
    answer.reaction.emission =
      some (.ack offer.before.node.own (token session offer hears).encode) ∧
      answer.before.node.settings = hears.before.node.settings ∧
      if hears.before.node.rounds.isFresh offer.before.node.rounds.next
      then Taken session offer hears answer else Declined hears answer := by
  have hregards : hears.Regards ⟨offer.before.node.own, .everyone, token session offer hears,
      (token session offer hears).encode⟩ := by
    unfold Regards
    rw [Node.regards_of_listening h.listening, h.vacant, h.heard_offer]
    rfl
  have hheard := h.hearing.of_offer h.listening h.awake hregards rfl h.same
  obtain ⟨e, he⟩ := h.returned.exists_emission
  split at hheard
  · obtain ⟨hsilent, hstate, hrounds⟩ := hheard
    have hbefore := h.answered.before_eq hsilent he hstate
    obtain ⟨hsaid, hspeaks, hkept⟩ := h.answers.of_state_accepting (hbefore ▸ hstate)
    have hheld : hears.after.node.rounds.held = offer.before.node.rounds.next := by
      rw [hrounds]
      exact Rounds.held_accept_of_isFresh ‹_›
    rw [if_pos ‹_›]
    exact ⟨hsaid, hbefore ▸ h.hearing.settings_after, ⟨hstate, hheld⟩, hbefore, hspeaks,
      (congrArg Rounds.held hkept).trans (hbefore ▸ hheld)⟩
  · obtain ⟨hsaid, hstate, hrounds⟩ := hheard
    obtain rfl := h.answered.eq_of_emission hsaid
    rw [if_neg ‹_›]
    exact ⟨hsaid, rfl, rfl, hstate, hrounds⟩

/-- The giver waits for its successor until the answer comes. -/
theorem before_ends (h : HandsOver session offer hears answer ends) :
    ends.before.node.own = offer.before.node.own ∧
      ends.before.node.settings = offer.before.node.settings ∧
      ends.before.node.state = .awaitingTaker hears.before.node.own ∧
      ends.before.node.offer = some (token session offer hears) ∧
      ends.before.node.stats.turnsHandedOff = offer.before.node.stats.turnsHandedOff := by
  obtain ⟨idle, hrun, hidle⟩ := h.waits
  have hr := h.reaction_offer
  rw [Node.offerToken_eq h.unoffered h.member h.next] at hr
  rw [hrun.eq_of_idle hidle, h.offers.own_after, h.offers.settings_after, h.offers.state_after,
    h.offers.offer_after, h.offers.turnsHandedOff_after, hr]
  exact ⟨rfl, rfl, rfl, rfl, rfl⟩

/-- **The giver lets go of its token** when the answer reaches it, whatever it means. -/
theorem of_ends (h : HandsOver session offer hears answer ends) :
    ends.after.node.state = .listening ∧ ends.after.node.offer = none ∧
      ends.after.node.presumedHolder = some hears.before.node.own ∧
      ends.after.node.stats.turnsHandedOff = offer.before.node.stats.turnsHandedOff + 1 := by
  obtain ⟨hown, hsettings, hstate, hoffer, hcount⟩ := h.before_ends
  obtain ⟨hsaid, hsame, -⟩ := h.of_hears
  have htaker : answer.before.node.own = hears.before.node.own := congrArg Settings.node hsame
  have hheard := h.returned.heard_eq hsaid (by rw [htaker, hown]; exact h.ne_own)
    (by rw [htaker, hsettings]; exact h.mem_roster) (Or.inl hown.symm) (Message.wellFormed_ack _)
  rw [htaker] at hheard
  rw [← hcount]
  exact h.ending.of_answer hstate h.patient hoffer hheard

/-- **The successor takes the token or declines it**, and which of them it does depends on what it
has held before. -/
theorem taken_or_declined (h : HandsOver session offer hears answer ends) :
    (hears.before.node.rounds.held ≠ 4294967295 ∧ Taken session offer hears answer) ∨
    (hears.before.node.rounds.held = 4294967295 ∧ Declined hears answer) := by
  obtain ⟨-, -, hhears⟩ := h.of_hears
  have hfresh := Rounds.isFresh_next_iff (Station.sound_of_reachable h.giver).rounds h.held h.seen
  split at hhears
  · exact Or.inl ⟨hfresh.1 ‹_›, hhears⟩
  · exact Or.inr ⟨Decidable.not_not.1 (mt hfresh.2 ‹_›), hhears⟩

omit [Application α] in
/-- A token that is declined has not been taken. -/
theorem Declined.not_taken (h : Declined hears answer) : ¬Taken session offer hears answer := by
  intro ht
  have hstate := h.2.1
  rw [ht.1.1] at hstate
  exact absurd hstate nofun

/-- **No step of the two fails.** -/
theorem proceeds (h : HandsOver session offer hears answer ends) :
    ∀ z ∈ [offer, hears, answer, ends], z.before.Proceeds := by
  have hoffer : offer.before.Proceeds := fun radio clock => by
    refine Station.exists_step_of_state ?_ ?_ ?_ (fun _ => ⟨_, h.next⟩) radio clock <;>
      rw [h.offering] <;> nofun
  have hhears : hears.before.Proceeds := Station.proceeds_of_state (by simp [h.listening])
  have hanswer : answer.before.Proceeds := by
    rcases h.taken_or_declined with ⟨-, ⟨hstate, -⟩, hbefore, -⟩ | ⟨-, rfl, -⟩
    · exact Station.proceeds_of_state (by simp [hbefore, hstate])
    · exact hhears
  have hends : ends.before.Proceeds :=
    Station.proceeds_of_state (by simp [h.before_ends.2.2.1])
  simpa using ⟨hoffer, hhears, hanswer, hends⟩

/-- **At the end the giver is not master any more**, whatever has become of the token. -/
theorem master_ends (h : HandsOver session offer hears answer ends) :
    ends.after.node.master = false := by
  obtain ⟨idle, hrun, -⟩ := h.waits
  have hreachable := (hrun.reachable (h.giver.moment h.offers)).moment h.ending
  rw [(Station.sound_of_reachable hreachable).master, h.of_ends.1]
  rfl

end HandsOver

end Moment

/-- **An offer that is heard and acknowledged.**  The giver listens, is not master, has nothing to
offer and takes its successor for the holder.  The successor has the token, and begins its turn with
the round of the offer, exactly if it has not held the last round of all before; if it has, it
listens as before, and no step of the two fails in either case. -/
theorem token_transferred_iff {session : Session} {offer hears answer ends : Moment α}
    (h : Moment.HandsOver session offer hears answer ends) :
    (Moment.HandsOver.Taken session offer hears answer ↔
      hears.before.node.rounds.held ≠ 4294967295) ∧
    (hears.before.node.rounds.held = 4294967295 → Moment.HandsOver.Declined hears answer) ∧
    ends.after.node.state = .listening ∧ ends.after.node.master = false ∧
    ends.after.node.offer = none ∧
    ends.after.node.presumedHolder = some hears.before.node.own ∧
    ends.after.node.stats.turnsHandedOff = offer.before.node.stats.turnsHandedOff + 1 ∧
    ∀ z ∈ [offer, hears, answer, ends], z.before.Proceeds := by
  obtain ⟨hlistens, hoffer, hholder, hcount⟩ := h.of_ends
  refine ⟨?_, fun hlast => ?_, hlistens, h.master_ends, hoffer, hholder, hcount, h.proceeds⟩
  · rcases h.taken_or_declined with ⟨hheld, htaken⟩ | ⟨hheld, hdeclined⟩
    · exact iff_of_true htaken hheld
    · exact iff_of_false hdeclined.not_taken fun hne => hne hheld
  · rcases h.taken_or_declined with ⟨hheld, -⟩ | ⟨-, hdeclined⟩
    · exact absurd hlast hheld
    · exact hdeclined

/-! ## Node 1 hands its token to node 2 -/

/-- What node 1 offers: an ordinary token, or one of the last round. -/
def tokenOfOne (last : Bool) : Message := .turn ⟨2⟩ ⟨7⟩ (if last then 4294967295 else 7)

/-- Node 1 at the end of its turn offers its token to node 2, and hears that it is acknowledged. -/
def giving? (last : Bool) : Option (Station Beacon × Moment Beacon × Moment Beacon) := do
  let s ← Station.holder? ⟨1⟩ ⟨2⟩ (if last then 4294967294 else 5) [⟨1⟩, ⟨2⟩]
  let ended ← s.moment? ({} : ScriptedRadio) (.still (.ofMillis 8000))
  let offer ← ended.after.moment? ({} : ScriptedRadio) (.still (.ofMillis 8000))
  let answer := Message.ack (tokenOfOne last).encode
  let radio : ScriptedRadio := { inbox := [⟨some ⟨2⟩, ⟨1⟩, answer.encode⟩] }
  let ends ← offer.after.moment? radio (.still (.ofMillis 8000))
  return (s, offer, ends)

/-- What node 2 hears until it listens: it is let into the network of node 1, and, if it gets a
token of the last round with that, it gives its turn up for the payload of node 1. -/
def scriptOfTwo (last : Bool) : List (Timestamp × List Packet) :=
  if last then
    [(.zero, []),
      (.zero, [⟨some ⟨1⟩, ⟨2⟩, (Message.joinAck ⟨2⟩ ⟨7⟩ 4294967294 true [⟨1⟩, ⟨2⟩]).encode⟩]),
      (.zero, []), (.zero, [⟨some ⟨1⟩, .everyone, (Message.data 4294967295 []).encode⟩]),
      (.zero, []), (.zero, [])]
  else
    [(.zero, []),
      (.zero, [⟨some ⟨1⟩, ⟨2⟩, (Message.joinAck ⟨2⟩ ⟨7⟩ 5 false [⟨1⟩, ⟨2⟩]).encode⟩])]

/-- Node 2 hears the offer of node 1, and takes one more step. -/
def taking? (last : Bool) : Option (Station Beacon × Moment Beacon × Moment Beacon) := do
  let p ← Station.played? ⟨2⟩ (scriptOfTwo last)
  let radio : ScriptedRadio := { inbox := [⟨some ⟨1⟩, .everyone, (tokenOfOne last).encode⟩] }
  let hears ← p.2.2.moment? radio (.still .zero)
  let next ← hears.after.moment? ({} : ScriptedRadio) (.still .zero)
  return (p.2.2, hears, next)

theorem isSome_giving? (last : Bool) : (giving? last).isSome = true := by
  cases last <;> decide

theorem isSome_taking? (last : Bool) : (taking? last).isSome = true := by
  cases last <;> decide

def giving (last : Bool) : Station Beacon × Moment Beacon × Moment Beacon :=
  (giving? last).get (isSome_giving? last)

def taking (last : Bool) : Station Beacon × Moment Beacon × Moment Beacon :=
  (taking? last).get (isSome_taking? last)

theorem run_giving (last : Bool) : (giving last).2.1.before.Reachable ∧
    (giving last).2.1.Happens ∧ (giving last).2.2.Happens ∧
      (giving last).2.2.before = (giving last).2.1.after := by
  have h := (Option.some_get (isSome_giving? last)).symm
  simp only [giving?, bind, Option.bind_eq_some_iff, pure, Option.some.injEq] at h
  obtain ⟨s, hs, ended, hended, offer, hoffer, ends, hends, hall⟩ := h
  obtain ⟨ended_happens, rfl⟩ := Station.happens_of_moment? hended
  obtain ⟨offer_happens, hbefore⟩ := Station.happens_of_moment? hoffer
  obtain ⟨ends_happens, hafter⟩ := Station.happens_of_moment? hends
  rw [show giving last = _ from hall.symm]
  exact ⟨hbefore ▸ (Station.reachable_of_holder? hs).moment ended_happens, offer_happens,
    ends_happens, hafter⟩

theorem run_taking (last : Bool) : (taking last).2.1.before.Reachable ∧
    (taking last).2.1.Happens ∧ (taking last).2.2.Happens ∧
      (taking last).2.2.before = (taking last).2.1.after := by
  have h := (Option.some_get (isSome_taking? last)).symm
  simp only [taking?, bind, Option.bind_eq_some_iff, pure, Option.some.injEq] at h
  obtain ⟨p, hp, hears, hhears, next, hnext, hall⟩ := h
  obtain ⟨boot, hrun⟩ := Station.run_of_played? hp
  obtain ⟨hears_happens, hbefore⟩ := Station.happens_of_moment? hhears
  obtain ⟨next_happens, hafter⟩ := Station.happens_of_moment? hnext
  rw [show taking last = _ from hall.symm]
  exact ⟨hbefore ▸ hrun.reachable boot.reachable, hears_happens, next_happens, hafter⟩

/-- The step in which node 2 answers: the one in which it hears an offer of the last round, and the
next one after any other offer. -/
def answering (last : Bool) : Moment Beacon := if last then (taking last).2.1 else (taking last).2.2

/-- Node 2 answers at once if it declines, and in its next step if it takes the token. -/
theorem answeredIn_answering (last : Bool) :
    (taking last).2.1.AnsweredIn (answering last) ∧ (answering last).Happens := by
  obtain ⟨-, hhears, hnext, hafter⟩ := run_taking last
  cases last with
  | true => exact ⟨Or.inl rfl, hhears⟩
  | false => exact ⟨.of_next (by decide) hafter, hnext⟩

/-- **The two steps of node 1 and those of node 2 are a hand-over**, of a token of any kind. -/
theorem handsOver_giving (last : Bool) : Moment.HandsOver ⟨7⟩ (giving last).2.1 (taking last).2.1
    (answering last) (giving last).2.2 := by
  obtain ⟨hgiver, hoffers, hends, hafter⟩ := run_giving last
  obtain ⟨htaker, hhears, -⟩ := run_taking last
  obtain ⟨hanswered, hanswers⟩ := answeredIn_answering last
  refine ⟨hgiver, ?_, ?_, ?_, ?_, htaker, ?_, ?_, ?_, ?_, ?_, ?_, ?_, hoffers, ?_, hhears, hanswered,
    hanswers, ⟨[], .of_eq hafter, List.forall_mem_nil _⟩, ?_, ?_, hends⟩
  case refine_12 =>
    refine ⟨?_, .toAll (tokenOfOne last), ?_, true, ?_⟩ <;> cases last <;> decide
  case refine_13 =>
    refine ⟨?_, .ack ⟨1⟩ (tokenOfOne last).encode, ?_, true, ?_⟩ <;> cases last <;> decide
  all_goals cases last <;> decide

/-- Node 2 takes an ordinary token of node 1. -/
theorem token_transferred_of_two :
    Moment.HandsOver.Taken ⟨7⟩ (giving false).2.1 (taking false).2.1 (answering false) ∧
      (answering false).after.node.rounds.held = 7 ∧
      (giving false).2.2.after.node.stats.turnsHandedOff = 1 := by
  obtain ⟨htaken, -, -, -, -, -, hcount, -⟩ := token_transferred_iff (handsOver_giving false)
  exact ⟨htaken.2 (by decide), by decide, hcount.trans (by decide)⟩

/-- **A token of the last round is lost when it is handed over**: node 2, which has held one before,
listens as it did, and node 1 has let go of it. -/
theorem not_token_transferred : ¬∀ (session : Session) (offer hears answer ends : Moment Beacon),
    Moment.HandsOver session offer hears answer ends →
      Moment.HandsOver.Taken session offer hears answer := by
  intro hall
  have htaken := hall _ _ _ _ _ (handsOver_giving true)
  exact absurd htaken.2.2.1 (by decide)

end RadioRing
