import RadioRing.Application.Beacon
import RadioRing.Proofs.Moves
import RadioRing.Proofs.RoundTrip
import RadioRing.Radio.Script

/-!
# Proofs/Reachable — what is true of a station at any time of its life

`Station.Reachable` collects every station that some run of steps leads to, from being switched on
with settings that are in order and **on radios and clocks that may do anything**.  All of them are
`Node.Sound`: a node is master exactly in the states between its payload and the end of its
hand-off, and an offer of the token waits exactly while it is handed off, at the latest round that
the node knows of.
-/

namespace RadioRing

/-- What was heard of last is above everything held, unless nothing is above it. -/
def Rounds.Minted (r : Rounds) : Prop := r.held.toNat < r.seen.toNat ∨ r.seen.toNat = lastRound

/-- The round that a node would mint counts as minted once the node has taken note of it. -/
theorem Rounds.minted_observe_next (r : Rounds) : (r.observe r.next).Minted := by
  have hseen : (r.observe r.next).seen.toNat = r.next.toNat := by
    rw [toNat_seen_observe]
    exact Nat.max_eq_right (Nat.le_trans (Nat.le_max_right _ _) r.top_le_toNat_next)
  rcases Nat.lt_or_eq_of_le r.top_le_lastRound with h | h
  · refine Or.inl ?_
    rw [hseen, toNat_next h]
    exact Nat.lt_succ_of_le (Nat.le_max_left _ _)
  · exact Or.inr (hseen.trans (toNat_next_last h))

theorem Membership.contains_ofRoster {roster : List Address} {a : Address} :
    (ofRoster roster).contains a = true ↔ a ∈ roster :=
  AddressMap.contains_ofKeys

namespace Settings

/-- Nobody on a roster that passes the check is everyone. -/
theorem ne_everyone_of_checkAddresses {addresses : List Address} : ∀ {before : List Address},
    checkAddresses before addresses = .ok () → ∀ a ∈ addresses, a ≠ .everyone := by
  induction addresses with
  | nil => exact fun _ => nofun
  | cons b rest ih =>
    intro before h a ha
    unfold checkAddresses at h
    split at h
    · exact absurd h nofun
    · rename_i hb
      split at h
      · exact absurd h nofun
      · rcases List.mem_cons.1 ha with rfl | ha
        · rintro rfl
          exact hb rfl
        · exact ih h a ha

/-- Accepted settings have a roster of single nodes, not too many, that names the node itself. -/
theorem parts_of_check {s : Settings} (h : s.check = .ok (.ok ())) :
    s.roster.length ≤ maxRoster ∧ checkAddresses [] s.roster = .ok () ∧ s.node ∈ s.roster := by
  unfold check at h
  split at h
  · exact absurd h nofun
  · rename_i hparts
    simp only [checkParts, bind, Except.bind, throw, throwThe, MonadExceptOf.throw] at hparts
    repeat' split at hparts
    all_goals first
      | exact ⟨Nat.not_lt.1 ‹¬maxRoster < s.roster.length›, ‹_›,
          Decidable.not_not.1 ‹¬s.node ∉ s.roster›⟩
      | exact absurd hparts nofun

theorem roster_of_check {s : Settings} (h : s.check = .ok (.ok ())) :
    checkAddresses [] s.roster = .ok () ∧ s.node ∈ s.roster := (parts_of_check h).2

/-- No accepted roster names all nodes at once. -/
theorem ne_everyone_of_check {s : Settings} (h : s.check = .ok (.ok ())) {a : Address}
    (ha : a ∈ s.roster) : a ≠ .everyone :=
  ne_everyone_of_checkAddresses (roster_of_check h).1 a ha

end Settings

namespace Node

/-- The offer that goes with a state: none but while the token is handed off. -/
def OfferFits (n : Node) : State → Prop
  | .offering => ∀ m, n.offer = some m → n.rounds.Minted ∧ ∃ taker session,
      n.session = some session ∧ m = .turn taker session n.rounds.seen
  | .awaitingTaker taker => n.rounds.Minted ∧ taker ∈ n.settings.roster ∧ ∃ session,
      n.session = some session ∧ n.offer = some (.turn taker session n.rounds.seen)
  | _ => n.offer = none

/-- What every node keeps to. -/
structure Sound (n : Node) : Prop where
  accepted : n.settings.check = .ok (.ok ())
  /-- The table is about the roster. -/
  roster : ∀ a, n.table.contains a = true → a ∈ n.settings.roster
  network : ∀ session, n.session = some session → session.word ≠ 0
  rounds : n.rounds.held.toNat ≤ n.rounds.seen.toNat
  master : n.master = n.state.isMaster
  /-- A master has put nothing aside. -/
  attentive : n.state.isMaster = true → n.deferred = none
  offer : n.OfferFits n.state

/-- A node that has just been switched on is sound. -/
theorem sound_boot {settings : Settings} (h : settings.check = .ok (.ok ()))
    (random : Random.Stream) : (boot settings random).Sound where
  accepted := h
  roster _ := Membership.contains_ofRoster.1
  network := nofun
  rounds := Nat.le_refl _
  master := rfl
  attentive := nofun
  offer := rfl

end Node

/-- What a reaction has to see to, so that its node stays sound. -/
structure Reaction.Sound {α : Type} (n : Node) (r : Reaction α) : Prop where
  settings : r.node.settings = n.settings
  table : r.node.table = n.table
  network : ∀ session, r.node.session = some session → session.word ≠ 0
  rounds : r.node.rounds.held.toNat ≤ r.node.rounds.seen.toNat
  master : r.node.master = r.transition.next.isMaster
  attentive : r.transition.next.isMaster = true → r.node.deferred = none
  offer : r.node.OfferFits r.transition.next

namespace Node

variable {α : Type} {n n' : Node} {r : Reaction α}

/-- **A sound reaction leaves a sound node**, whether or not the radio took its frame. -/
theorem Sound.of_finish (h : n.Sound) (hr : r.Sound n) {taken : Bool} {now : Timestamp}
    {events : List Event} (hf : r.finish taken now = .ok (n', events)) : n'.Sound := by
  obtain ⟨timers, random, e, a, rfl, -⟩ := Reaction.finish_eq_ok hf
  refine ⟨?_, fun x hx => ?_, hr.network, hr.rounds, hr.master, hr.attentive, ?_⟩
  · exact hr.settings ▸ h.accepted
  · have hkeys : (r.node.table.markAll r.transition.marks).keys = n.table.keys :=
      (Membership.keys_markAll _ _).trans (congrArg _ hr.table)
    have hx' : n.table.contains x = true := by
      rwa [AddressMap.contains_iff_mem_keys, ← hkeys, ← AddressMap.contains_iff_mem_keys]
    exact hr.settings ▸ h.roster x hx'
  · have hoffer := hr.offer
    unfold OfferFits at hoffer ⊢
    exact hoffer

/-! ## Act by act -/

/-- Only a master has an offer. -/
theorem Sound.offer_eq_none (h : n.Sound) (hs : n.state.isMaster = false) : n.offer = none := by
  have ho := h.offer
  cases hst : n.state <;> rw [hst] at hs ho <;> first | exact ho | exact absurd hs nofun

theorem offerFits_of_none (ho : n.offer = none) {s : State} (hs : ∀ taker, s ≠ .awaitingTaker taker) :
    n.OfferFits s := by
  unfold OfferFits
  split
  · exact fun m hm => absurd (ho.symm.trans hm) nofun
  · exact absurd rfl (hs _)
  · exact ho

/-- What is held stays among what is seen when a token is taken. -/
theorem rounds_accept {rounds : Rounds} (h : rounds.held.toNat ≤ rounds.seen.toNat)
    (round : UInt32) : (rounds.accept round).held.toNat ≤ (rounds.accept round).seen.toNat := by
  rw [Rounds.toNat_held_accept, Rounds.toNat_seen_accept]
  omega

theorem rounds_observe {rounds : Rounds} (h : rounds.held.toNat ≤ rounds.seen.toNat)
    (round : UInt32) : (rounds.observe round).held.toNat ≤ (rounds.observe round).seen.toNat := by
  rw [Rounds.held_observe, Rounds.toNat_seen_observe]
  exact Nat.le_trans h (Nat.le_max_left _ _)

/-- What a newcomer holds is among what it has seen. -/
theorem rounds_adopt (n : Node) (session : Session) (round : UInt32) (handsOver : Bool)
    (via : Address) : (n.adopt session round handsOver via).rounds.held.toNat ≤
      (n.adopt session round handsOver via).rounds.seen.toNat := by
  cases handsOver with
  | false => exact Nat.zero_le _
  | true => exact Nat.le_of_eq (congrArg UInt32.toNat
      ((Rounds.held_claim _).trans (Rounds.seen_claim _).symm))

variable {clock : Readings} {heard : Option Inbound} {e : Option Emission} {t : Transition}

/-- No act leads into a network without a name. -/
theorem Acts.network (ha : n.Acts clock heard n' e t)
    (h : ∀ session, n.session = some session → session.word ≠ 0)
    (hm : ∀ m ∈ heard, n.link.Passes m) :
    ∀ session, n'.session = some session → session.word ≠ 0 := by
  cases ha with
  | joins state hears message =>
    intro session hs
    obtain rfl := Option.some.inj hs
    have hnet := (Message.wellFormed_of_decode (hm _ hears).reads).network
    rw [message] at hnet
    exact hnet
  | founds =>
    intro session hs
    exact Option.some.inj hs ▸ Session.ofWord_ne_zero _
  | admits => split <;> exact h
  | hearsListening _ _ _ makes | hearsAlone _ _ _ makes | hearsHolding _ _ _ _ makes
  | hearsGiving _ _ _ makes => cases makes <;> exact h
  | _ => exact h

/-- **No node holds a round that it has not heard of.** -/
theorem Acts.rounds_le (ha : n.Acts clock heard n' e t)
    (h : n.rounds.held.toNat ≤ n.rounds.seen.toNat) :
    n'.rounds.held.toNat ≤ n'.rounds.seen.toNat := by
  cases ha with
  | joins => exact rounds_adopt ..
  | founds | rescans | strays => exact Nat.le_refl _
  | admits =>
    split
    · exact h
    · exact rounds_observe h _
  | claims | claimsUnopposed => exact rounds_accept h _
  | offers => exact rounds_observe h _
  | hearsListening _ _ _ makes =>
    cases makes with
    | calledAway => exact Nat.le_refl _
    | offerToOther | learns => exact rounds_observe h _
    | takes => exact rounds_accept h _
    | _ => exact h
  | hearsAlone _ _ _ makes =>
    cases makes with
    | rejoins => exact Nat.le_refl _
    | takes => exact rounds_accept h _
    | _ => exact h
  | hearsHolding _ _ _ _ makes =>
    cases makes with
    | offered => exact rounds_accept h _
    | _ => exact h
  | hearsGiving _ _ _ makes => cases makes <;> exact h
  | _ => exact h

/-- **The flag of a master follows the state.** -/
theorem Acts.master_eq (ha : n.Acts clock heard n' e t) (h : n.master = n.state.isMaster) :
    n'.master = t.next.isMaster := by
  have keeps {s : State} (hs : n.state = s) {flag : Bool} (hflag : s.isMaster = flag) :
      n.master = flag := h.trans (hs ▸ hflag)
  cases ha with
  | asks state | asksAgain state | stopsAsking state | forgets state | claimsUnopposed state
  | claims state | passesOver state | acknowledges state | accepts state | turnsToRepeat state
  | repeats state | offers state | offersAgain state | stopsOffering state => exact keeps state rfl
  | joins => split <;> rfl
  | founds | rescans | speaks | strays | findsNobody => rfl
  | waitsToReply | idles => exact h
  | admits state =>
    split
    · exact keeps state rfl
    · rfl
  | endsTurn state => exact state.elim (keeps · rfl) (keeps · rfl)
  | hearsListening state _ _ makes =>
    cases makes with
    | calledAway => rfl
    | _ => exact keeps state rfl
  | hearsAlone state _ _ makes =>
    cases makes with
    | rejoins => rfl
    | _ => exact keeps state rfl
  | hearsHolding state _ _ _ makes =>
    cases makes with
    | yields => rfl
    | _ => exact keeps state rfl
  | hearsGiving state _ _ makes =>
    cases makes with
    | handsOff | drops => rfl
    | _ => exact keeps state rfl

/-- **A master puts nothing aside.** -/
theorem Acts.deferred_eq_none (ha : n.Acts clock heard n' e t)
    (h : n.state.isMaster = true → n.deferred = none) (ht : t.next.isMaster = true) :
    n'.deferred = none := by
  have keeps {s : State} (hs : n.state = s) (hmaster : s.isMaster = true) : n.deferred = none :=
    h (hs ▸ hmaster)
  cases ha with
  | speaks | rescans | strays => rfl
  | joins => split at ht <;> exact absurd ht nofun
  | waitsToReply state =>
    rw [Transition.next_goTo, State.isMaster_of_isReplying state] at ht
    exact absurd ht nofun
  | idles => exact h ht
  | turnsToRepeat state | repeats state | offers state | offersAgain state | stopsOffering state =>
    exact keeps state rfl
  | endsTurn state => exact state.elim (keeps · rfl) (keeps · rfl)
  | hearsListening _ _ _ makes => cases makes <;> exact absurd ht nofun
  | hearsAlone _ _ _ makes => cases makes <;> exact absurd ht nofun
  | hearsHolding state _ _ _ makes =>
    cases makes with
    | yields => exact absurd ht nofun
    | _ => exact keeps state rfl
  | hearsGiving state _ _ makes =>
    cases makes with
    | handsOff | drops => exact absurd ht nofun
    | _ => exact keeps state rfl
  | _ => exact absurd ht nofun

/-- **An offer is made for the latest round that is known**, also after an eviction. -/
theorem Sound.minted_offers (h : n.Sound) (hs : n.state = .offering) :
    (n.rounds.observe (n.offeredRound?.getD n.rounds.next)).Minted ∧
      (n.rounds.observe (n.offeredRound?.getD n.rounds.next)).seen =
        n.offeredRound?.getD n.rounds.next := by
  have hfits : ∀ m, n.offer = some m → n.rounds.Minted ∧ ∃ taker session,
      n.session = some session ∧ m = .turn taker session n.rounds.seen := by
    simpa only [hs, OfferFits] using h.offer
  -- An offer that waits already has the round seen last; a new one becomes that round.
  cases ho : n.offer with
  | none =>
    have hnone : n.offeredRound? = none := by rw [offeredRound?, ho]
    rw [hnone]
    refine ⟨n.rounds.minted_observe_next, UInt32.toNat_inj.1 ?_⟩
    rw [Option.getD_none, Rounds.toNat_seen_observe]
    exact Nat.max_eq_right (Nat.le_trans (Nat.le_max_right _ _) n.rounds.top_le_toNat_next)
  | some m =>
    obtain ⟨hminted, taker', session', -, rfl⟩ := hfits m ho
    have hsome : n.offeredRound? = some n.rounds.seen := by rw [offeredRound?, ho]
    have hobserve : n.rounds.observe n.rounds.seen = n.rounds := by
      refine Rounds.ext rfl (UInt32.toNat_inj.1 ?_)
      rw [Rounds.toNat_seen_observe, Nat.max_self]
    rw [hsome, Option.getD_some, hobserve]
    exact ⟨hminted, rfl⟩

/-- **What is offered fits the state**: nothing but while the token is handed off. -/
theorem Sound.offerFits (h : n.Sound) (ha : n.Acts clock heard n' e t) : n'.OfferFits t.next := by
  have fits {s : State} (hs : n.state = s) : n.OfferFits s := hs ▸ h.offer
  have nothing {s : State} (hs : n.state = s) (hmaster : s.isMaster = false) : n.offer = none :=
    h.offer_eq_none (hs ▸ hmaster)
  cases ha with
  | asks state | asksAgain state | stopsAsking state | founds state | forgets state
  | claimsUnopposed state | claims state | passesOver state | acknowledges state
  | accepts state => exact nothing state rfl
  | speaks | rescans | strays | findsNobody => rfl
  | idles => exact h.offer
  | waitsToReply state =>
    have hmaster := State.isMaster_of_isReplying state
    refine offerFits_of_none (h.offer_eq_none hmaster) fun taker hs => ?_
    rw [Transition.next_goTo] at hs
    rw [hs] at hmaster
    exact absurd hmaster nofun
  | joins state => split <;> exact nothing state rfl
  | admits state => split <;> exact nothing state rfl
  | endsTurn state => exact offerFits_of_none (state.elim fits fits) nofun
  | turnsToRepeat state | repeats state =>
    have unoffered : n.offer = none := fits state
    exact unoffered
  | offersAgain state => exact fits state
  | offers state member next =>
    rename_i session taker
    obtain ⟨hminted, hseen⟩ := h.minted_offers state
    refine ⟨hminted, ?_, session, member, ?_⟩
    · exact h.roster taker (Membership.contains_of_isEligible
        (Membership.successor_eq_some_iff.1 next).1)
    · exact congrArg (fun round => some (Message.turn taker session round)) hseen.symm
  | stopsOffering state =>
    obtain ⟨hminted, -, session, member, offered⟩ := fits state
    exact fun m hm => ⟨hminted, _, session, member, Option.some.inj (hm.symm.trans offered)⟩
  | hearsListening state _ _ makes => cases makes <;> first | exact nothing state rfl | rfl
  | hearsAlone state _ _ makes => cases makes <;> first | exact nothing state rfl | rfl
  | hearsHolding state _ _ _ makes =>
    have unoffered : n.offer = none := fits state
    cases makes with
    | echoed =>
      refine offerFits_of_none ?_ nofun
      exact unoffered
    | _ => exact unoffered
  | hearsGiving state _ _ makes =>
    cases makes with
    | handsOff | drops => rfl
    | waits | releases => exact fits state

/-! ## Step by step -/

/-- **Every rule keeps its node sound.** -/
theorem sound_react [Application α] {app : α} {clock : Readings} {heard : Option Inbound}
    (h : n.Sound) (hm : ∀ m ∈ heard, n.link.Passes m) (hr : n.react app clock heard = .ok r) :
    r.Sound n :=
  have ha := acts_of_react hr
  { settings := ha.settings_eq
    table := ha.table_eq
    network := ha.network h.network hm
    rounds := ha.rounds_le h.rounds
    master := ha.master_eq h.master
    attentive := ha.deferred_eq_none h.attentive
    offer := h.offerFits ha }

end Node

namespace Station

variable {α ρ : Type} [Application α]

/-! ## Run by run -/

/-- The stations that can come about: a station is switched on with settings that are in order and
any random numbers, and from then on takes steps, on whatever radio and at whatever time. -/
inductive Reachable : Station α → Prop
  | boot {settings : Settings} {random : Random.Stream} {app : α} {s : Station α}
      (h : Station.bootWith settings random app = .ok (.ok s)) : Reachable s
  | step {ρ : Type} [Radio ρ] {s s' : Station α} {radio radio' : ρ} {clock : Readings}
      {events : List Event} (hs : Reachable s)
      (h : s.step radio clock = .ok (s', radio', events)) : Reachable s'

omit [Application α] in
/-- A node is switched on only with settings that are in order. -/
theorem eq_of_boot {settings : Settings} {random : Random.Stream} {app : α} {s : Station α}
    (h : Station.bootWith settings random app = .ok (.ok s)) :
    settings.check = .ok (.ok ()) ∧ s = ⟨.boot settings random, app⟩ := by
  unfold Station.bootWith at h
  split at h
  · exact absurd h nofun
  · exact absurd h nofun
  · exact ⟨‹_›, (Except.ok.inj (Except.ok.inj h)).symm⟩

/-- **Every station that can come about is sound.** -/
theorem sound_of_reachable {s : Station α} (h : s.Reachable) : s.node.Sound := by
  induction h with
  | boot h =>
    obtain ⟨hcheck, rfl⟩ := eq_of_boot h
    exact Node.sound_boot hcheck _
  | step _ h ih =>
    obtain ⟨r, hr, -⟩ := Station.step_eq_ok h
    obtain ⟨events, hf⟩ := hr.ends
    exact ih.of_finish (Node.sound_react ih (fun m hm => Station.passes_of_hear hm) hr.reacts) hf

/-- A node is in its own roster. -/
theorem Reachable.own_mem {s : Station α} (h : s.Reachable) : s.node.own ∈ s.node.settings.roster :=
  (Settings.roster_of_check (sound_of_reachable h).accepted).2

/-- Steps of a clock that stands still lead from one reachable station to another. -/
theorem Reachable.steps [Radio ρ] {now : Timestamp} (count : Nat) :
    ∀ {s s' : Station α} {radio radio' : ρ} {events : List Event} {seen : List State},
      s.Reachable → s.steps radio now count = .ok (s', radio', events, seen) → s'.Reachable := by
  induction count with
  | zero =>
    intro s s' radio radio' events seen hs h
    obtain rfl : s = s' := congrArg Prod.fst (Except.ok.inj h)
    exact hs
  | succ count ih =>
    intro s s' radio radio' events seen hs h
    simp only [Station.steps, bind, Except.bind] at h
    split at h
    · exact absurd h nofun
    · rename_i p hp
      obtain ⟨s₁, radio₁, events₁⟩ := p
      dsimp only at h
      split at h
      · exact absurd h nofun
      · rename_i p' hp'
        obtain ⟨s₂, radio₂, events₂, seen₂⟩ := p'
        obtain rfl : s₂ = s' := congrArg Prod.fst (Except.ok.inj h)
        exact ih (.step hs hp) hp'

/-! ## A holder and a giver -/

/-- What node `own` of the ring 1, 2, 3 is told before it starts. -/
def settingsOfThree (own : Address) : Settings :=
  { node := own, roster := [⟨1⟩, ⟨2⟩, ⟨3⟩], timings := { answerJitter := .zero } }

/-- Node `own` of a ring of `members` in its first turn, after node `via` has let it in and handed
it the token that comes after `round`. -/
def holder? (own via : Address) (round : UInt32) (members : List Address) :
    Option (Station Beacon) := do
  let booted ← (Station.boot (settingsOfThree own) 0 ({ own } : Beacon)).toOption
  let s ← booted.toOption
  let admission := Message.joinAck own ⟨7⟩ round true members
  let radio : ScriptedRadio := { inbox := [⟨some via, own, admission.encode⟩] }
  let p ← (s.steps radio .zero 3).toOption
  return p.1

/-- Node `own` of that ring when its first turn is over and it offers the token that comes next. -/
def giver? (own via : Address) (round : UInt32) (members : List Address) :
    Option (Station Beacon) := do
  let s ← holder? own via round members
  let p ← (s.steps ({} : ScriptedRadio) (.ofMillis 8000) 2).toOption
  return p.1

theorem eq_ok_of_toOption {ε β : Type} {x : Except ε β} {y : β} (h : x.toOption = some y) :
    x = .ok y := by
  cases x with
  | error e => exact absurd h nofun
  | ok z => exact congrArg Except.ok (Option.some.inj h)

variable {own via : Address} {round : UInt32} {members : List Address} {s : Station Beacon}

/-- The holder that is played out can come about. -/
theorem reachable_of_holder? (h : holder? own via round members = some s) : s.Reachable := by
  simp only [holder?, bind, Option.bind_eq_some_iff, pure, Option.some.injEq] at h
  obtain ⟨booted, hbooted, s₀, hs₀, ⟨s', radio', events, seen⟩, hp, rfl⟩ := h
  obtain rfl := eq_ok_of_toOption hs₀
  exact (Reachable.boot (eq_ok_of_toOption hbooted)).steps 3 (eq_ok_of_toOption hp)

theorem reachable_of_giver? (h : giver? own via round members = some s) : s.Reachable := by
  simp only [giver?, bind, Option.bind_eq_some_iff, pure, Option.some.injEq] at h
  obtain ⟨s₀, hs₀, ⟨s', radio', events, seen⟩, hp, rfl⟩ := h
  exact (reachable_of_holder? hs₀).steps 2 (eq_ok_of_toOption hp)

end Station

end RadioRing
