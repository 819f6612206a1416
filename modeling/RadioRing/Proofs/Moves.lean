import RadioRing.Proofs.Acts
import RadioRing.Proofs.TokenRounds

/-!
# Proofs/Moves — how a node gets to where it stands

`Node.Acts` read backwards: for the states that a fact about the ring turns on, the acts that lead
there, and for what a node says, the acts that say it.  **A turn begins in one of three ways**
(`Acts.of_next_speaking`), a token is taken only by an offer that is fresh
(`Acts.of_next_accepting`), and outside the way into a network the token held only grows
(`Acts.held_le`).  No step fails unless it leads into a network, out of one, or into being alone
(`Station.exists_step_of_state`).
-/

namespace RadioRing

/-- The states of a node that has got into a network and has not left it. -/
def State.isSettled : State → Bool
  | requesting | awaitingAdmission | founding => false
  | _ => true

theorem State.isSettled_of_isReplying {s : State} (h : s.isReplying = true) :
    s.isSettled = true := by
  cases s <;> first | rfl | exact absurd h nofun

namespace Node

variable {n n' : Node} {clock : Readings} {heard : Option Inbound} {e : Option Emission}
  {t : Transition} {m : Inbound}

/-- What a message shows of its sender can only let the sender in. -/
theorem eligible_of_mem_readmission {x : Mark} (h : x ∈ n.readmission m) : x.eligible = true := by
  have admits (alive : Bool) (hx : x ∈ if alive ∧ ¬n.table.isEligible m.sender
      then [(⟨m.sender, true⟩ : Mark)] else []) : x.eligible = true := by
    split at hx
    · rw [List.mem_singleton.1 hx]
    · exact absurd hx List.not_mem_nil
  exact admits _ h

/-- A message whose sender it does not readmit: nobody is readmitted for asking to be. -/
theorem readmission_joinRequest {joiner : Address} (h : m.message = .joinRequest joiner) :
    n.readmission m = [] := by
  unfold readmission
  rw [h]
  simp

/-- An offer of the node's own network that names it, and whose round the node is past. -/
def Outdates (n : Node) (m : Inbound) : Prop := ∃ session round,
  m.message = .turn n.own session round ∧ n.session = some session ∧ n.rounds.isFresh round = false

/-! ## Where an act leads -/

/-- **A node that is about to accept a token was offered a fresh one**, and has taken it. -/
theorem Acts.of_next_accepting {giver : Address} {echo : Bytes} (h : n.Acts clock heard n' e t)
    (ht : t.next = .accepting giver echo) :
    (n.state = .listening ∨ n.state = .alone) ∧ ∃ m session round,
      n.regards heard = some m ∧ m.message = .turn n.own session round ∧
      n.session = some session ∧ n.rounds.isFresh round = true ∧
      n'.rounds = n.rounds.accept round ∧ m.sender = giver ∧ m.raw = echo := by
  cases h with
  | joins => split at ht <;> exact absurd ht nofun
  | waitsToReply state | idles state =>
    rw [Transition.next_goTo] at ht
    rw [ht] at state
    exact absurd state nofun
  | hearsListening state early hears makes =>
    cases makes with
    | takes message same fresh =>
      obtain ⟨hgiver, hecho⟩ := State.accepting.inj ht
      exact ⟨Or.inl state, _, _, _, (regards_of_listening state heard).trans hears, message, same,
        fresh, rfl, hgiver, hecho⟩
    | _ => exact absurd ht nofun
  | hearsAlone state early hears makes =>
    cases makes with
    | takes message same fresh =>
      obtain ⟨hgiver, hecho⟩ := State.accepting.inj ht
      have hne : n.state ≠ .listening := by rw [state]; nofun
      exact ⟨Or.inr state, _, _, _, (regards_of_ne_listening hne heard).trans hears, message, same,
        fresh, rfl, hgiver, hecho⟩
    | _ => exact absurd ht nofun
  | hearsHolding _ _ _ _ makes => cases makes <;> exact absurd ht nofun
  | hearsGiving _ _ _ makes => cases makes <;> exact absurd ht nofun
  | _ => exact absurd ht nofun

/-- **A turn begins in one of three ways**: with a token that was accepted, with one that came with
an admission, or with one that is claimed when the ring is silent. -/
theorem Acts.of_next_speaking (h : n.Acts clock heard n' e t) (ht : t.next = .speaking) :
    (∃ giver echo, n.state = .accepting giver echo ∧ n'.rounds = n.rounds) ∨
    (n.state = .awaitingAdmission ∧ ∃ m session round members, heard = some m ∧
      m.message = .joinAck n.own session round true members) ∨
    (n.state = .listening ∧ n.timers.watchdog.elapsed clock.start = true ∧
      n'.rounds = n.rounds.claim) := by
  cases h with
  | joins state hears message =>
    rename_i m session round handsOver members
    cases handsOver with
    | true => exact Or.inr (Or.inl ⟨state, m, session, round, members, hears, message⟩)
    | false => exact absurd ht nofun
  | waitsToReply state | idles state =>
    rw [Transition.next_goTo] at ht
    rw [ht] at state
    exact absurd state nofun
  | claimsUnopposed state due | claims state due => exact Or.inr (Or.inr ⟨state, due, rfl⟩)
  | accepts state => exact Or.inl ⟨_, _, state, rfl⟩
  | hearsListening _ _ _ makes => cases makes <;> exact absurd ht nofun
  | hearsAlone _ _ _ makes => cases makes <;> exact absurd ht nofun
  | hearsHolding _ _ _ _ makes => cases makes <;> exact absurd ht nofun
  | hearsGiving _ _ _ makes => cases makes <;> exact absurd ht nofun
  | _ => exact absurd ht nofun

/-- **A node is about to answer only whom a request has named.** -/
theorem Acts.of_next_admitting {joiner : Address} (h : n.Acts clock heard n' e t)
    (ht : t.next = .admitting joiner) : n.state = .admitting joiner ∨
      ∃ m, n.regards heard = some m ∧ m.message = .joinRequest joiner := by
  cases h with
  | joins => split at ht <;> exact absurd ht nofun
  | waitsToReply | idles => exact Or.inl ht
  | hearsListening state _ hears makes =>
    cases makes with
    | asked message =>
      obtain rfl := State.admitting.inj ht
      exact Or.inr ⟨_, (regards_of_listening state heard).trans hears, message⟩
    | _ => exact absurd ht nofun
  | hearsAlone state _ hears makes =>
    cases makes with
    | asked message =>
      obtain rfl := State.admitting.inj ht
      have hne : n.state ≠ .listening := by rw [state]; nofun
      exact Or.inr ⟨_, (regards_of_ne_listening hne heard).trans hears, message⟩
    | _ => exact absurd ht nofun
  | hearsHolding _ _ _ _ makes => cases makes <;> exact absurd ht nofun
  | hearsGiving _ _ _ makes => cases makes <;> exact absurd ht nofun
  | _ => exact absurd ht nofun

/-- **Who an offer waits for is the successor of the node**, and gets no worse while it waits. -/
theorem Acts.of_next_awaitingTaker {taker : Address} (h : n.Acts clock heard n' e t)
    (ht : t.next = .awaitingTaker taker) :
    (n.table.successor n.own = some taker ∨ n.state = .awaitingTaker taker) ∧
      ∀ x ∈ t.marks, x.eligible = true := by
  cases h with
  | joins => split at ht <;> exact absurd ht nofun
  | waitsToReply state => rw [Transition.next_goTo] at ht; rw [ht] at state; exact absurd state nofun
  | idles => exact ⟨Or.inr ht, nofun⟩
  | offers state member next =>
    obtain rfl := State.awaitingTaker.inj ht
    exact ⟨Or.inl next, nofun⟩
  | offersAgain state =>
    obtain rfl := State.awaitingTaker.inj ht
    exact ⟨Or.inr state, nofun⟩
  | hearsGiving state _ _ makes =>
    cases makes with
    | waits | releases =>
      obtain rfl := State.awaitingTaker.inj ht
      exact ⟨Or.inr state, fun x hx => eligible_of_mem_readmission hx⟩
    | _ => exact absurd ht nofun
  | hearsListening _ _ _ makes => cases makes <;> exact absurd ht nofun
  | hearsAlone _ _ _ makes => cases makes <;> exact absurd ht nofun
  | hearsHolding _ _ _ _ makes => cases makes <;> exact absurd ht nofun
  | _ => exact absurd ht nofun

/-- **A node is alone** when it has founded a network, when it has found nobody to offer the token
to, or when it was alone before; then only an outdated offer lets its sender in. -/
theorem Acts.of_next_alone (h : n.Acts clock heard n' e t) (ht : t.next = .alone) :
    (n.state = .founding ∧ t.marks = [⟨n.own, true⟩]) ∨
    (n.state = .offering ∧ n.table.successor n.own = none ∧ t.marks = []) ∨
    (n.state = .alone ∧ (∀ x ∈ t.marks, x.eligible = true) ∧
      ∀ a, (∃ x ∈ t.marks, x.node = a) ↔ ∃ m ∈ heard, n.Outdates m ∧ m.sender = a) := by
  cases h with
  | joins => split at ht <;> exact absurd ht nofun
  | founds state => exact Or.inl ⟨state, rfl⟩
  | findsNobody state nobody => exact Or.inr (Or.inl ⟨state, nobody, rfl⟩)
  | waitsToReply state => rw [Transition.next_goTo] at ht; rw [ht] at state; exact absurd state nofun
  | idles _ _ idle =>
    rw [Transition.next_goTo] at ht
    refine Or.inr (Or.inr ⟨ht, nofun, fun a => ⟨nofun, ?_⟩⟩)
    rintro ⟨m, hm, -⟩
    have hne : n.state ≠ .listening := by rw [ht]; nofun
    have hawaits := (idle m ((regards_of_ne_listening hne heard).symm ▸ hm)).1
    rw [ht] at hawaits
    exact absurd hawaits nofun
  | hearsAlone state early hears makes =>
    refine Or.inr (Or.inr ⟨state, ?_⟩)
    subst hears
    cases makes with
    | declines message same stale =>
      refine ⟨fun x hx => by rw [List.mem_singleton.1 hx], fun a => ?_⟩
      have outdates : n.Outdates _ := ⟨_, _, message, same, stale⟩
      simp [outdates]
    | ignores message =>
      refine ⟨nofun, fun a => ⟨nofun, ?_⟩⟩
      rintro ⟨m', hm', ⟨session, round, hturn, -⟩, -⟩
      obtain rfl := Option.some.inj hm'
      rw [hturn] at message
      exact absurd message nofun
    | _ => exact absurd ht nofun
  | hearsListening _ _ _ makes => cases makes <;> exact absurd ht nofun
  | hearsHolding _ _ _ _ makes => cases makes <;> exact absurd ht nofun
  | hearsGiving _ _ _ makes => cases makes <;> exact absurd ht nofun
  | _ => exact absurd ht nofun

/-- **A node in a network leaves it, or what it holds only grows.** -/
theorem Acts.held_le (h : n.Acts clock heard n' e t) (hs : n.state.isSettled = true) :
    t.next = .requesting ∨
      t.next.isSettled = true ∧ n.rounds.held.toNat ≤ n'.rounds.held.toNat := by
  have accepts (round : UInt32) : n.rounds.held.toNat ≤ (n.rounds.accept round).held.toNat := by
    rw [Rounds.toNat_held_accept]
    exact Nat.le_max_left _ _
  cases h with
  | asks state | asksAgain state | stopsAsking state | joins state | founds state =>
    rw [state] at hs
    exact absurd hs nofun
  | waitsToReply | idles => exact Or.inr ⟨hs, Nat.le_refl _⟩
  | admits =>
    refine Or.inr ⟨rfl, ?_⟩
    split <;> exact Nat.le_refl _
  | claims | claimsUnopposed => exact Or.inr ⟨rfl, accepts _⟩
  | rescans | strays => exact Or.inl rfl
  | hearsListening _ _ _ makes =>
    cases makes with
    | calledAway => exact Or.inl rfl
    | takes => exact Or.inr ⟨rfl, accepts _⟩
    | _ => exact Or.inr ⟨rfl, Nat.le_refl _⟩
  | hearsAlone _ _ _ makes =>
    cases makes with
    | rejoins => exact Or.inl rfl
    | takes => exact Or.inr ⟨rfl, accepts _⟩
    | _ => exact Or.inr ⟨rfl, Nat.le_refl _⟩
  | hearsHolding _ _ _ _ makes =>
    cases makes with
    | offered => exact Or.inr ⟨rfl, accepts _⟩
    | _ => exact Or.inr ⟨rfl, Nat.le_refl _⟩
  | hearsGiving _ _ _ makes => cases makes <;> exact Or.inr ⟨rfl, Nat.le_refl _⟩
  | _ => exact Or.inr ⟨rfl, Nat.le_refl _⟩

/-- A node that has a network always has one, its own or the one it has left. -/
theorem Acts.session_isSome (h : n.Acts clock heard n' e t) (hs : n.session.isSome = true) :
    n'.session.isSome = true := by
  cases h with
  | joins | founds => rfl
  | admits => split <;> exact hs
  | hearsListening _ _ _ makes => cases makes <;> exact hs
  | hearsAlone _ _ _ makes => cases makes <;> exact hs
  | hearsHolding _ _ _ _ makes => cases makes <;> exact hs
  | hearsGiving _ _ _ makes => cases makes <;> exact hs
  | _ => exact hs

/-- **On the way into its first network a node lets nobody in.** -/
theorem Acts.of_unsettled (h : n.Acts clock heard n' e t) (hs : n.state.isSettled = false) :
    n'.session.isSome = true ∨ t.next.isSettled = false ∧ t.marks = [] := by
  have settled {state : State} (hstate : n.state = state) (h : state.isSettled = true) :
      n'.session.isSome = true ∨ t.next.isSettled = false ∧ t.marks = [] := by
    rw [hstate, h] at hs
    exact absurd hs nofun
  cases h with
  | joins | founds => exact Or.inl rfl
  | asks | asksAgain | stopsAsking => exact Or.inr ⟨rfl, rfl⟩
  | idles => exact Or.inr ⟨hs, rfl⟩
  | waitsToReply state => exact settled rfl (State.isSettled_of_isReplying state)
  | endsTurn state => exact state.elim (settled · rfl) (settled · rfl)
  | forgets state | admits state | rescans state | hearsAlone state | claimsUnopposed state
  | claims state | passesOver state | hearsListening state | acknowledges state | accepts state
  | speaks state | turnsToRepeat state | hearsHolding state | repeats state | strays state
  | findsNobody state | offers state | offersAgain state | stopsOffering state | hearsGiving state =>
    exact settled state rfl

/-! ## What an act says -/

/-- **What a node says**: a payload at the beginning of its turn, the payload again, an offer of the
token, which waits from then on, or else an echo, a request of its own or an answer to one. -/
theorem Acts.of_emission {x : Emission} (h : n.Acts clock heard n' e t) (he : e = some x) :
    (n.state = .speaking ∧ n'.rounds = n.rounds ∧ t.next = .awaitingEcho ∧
      ∃ body, x.message = .data n.rounds.held body) ∨
    (n.state = .repeating ∧ n'.rounds = n.rounds ∧ t.next = .awaitingEcho ∧
      ∃ body, x.message = .retry n.rounds.held body) ∨
    (∃ taker, t.next = .awaitingTaker taker ∧ n'.offer = some x.message ∧
      n'.session = n.session ∧ (x.message.tag = .turn ∨ x.message ∈ n.offer)) ∨
    (∃ echo, x.message = .ack echo) ∨
    x.message = .joinRequest n.own ∨
    ∃ joiner session, n.state = .admitting joiner ∧ n.session = some session ∧
      x.message = n.answerFor session joiner := by
  cases h with
  | speaks state =>
    obtain rfl := Option.some.inj he
    exact Or.inl ⟨state, rfl, rfl, _, rfl⟩
  | repeats state =>
    obtain rfl := Option.some.inj he
    exact Or.inr (Or.inl ⟨state, rfl, rfl, _, rfl⟩)
  | offers =>
    obtain rfl := Option.some.inj he
    exact Or.inr (Or.inr (Or.inl ⟨_, rfl, rfl, rfl, Or.inl rfl⟩))
  | offersAgain =>
    obtain ⟨m, hm, rfl⟩ := Option.map_eq_some_iff.1 he
    exact Or.inr (Or.inr (Or.inl ⟨_, rfl, hm, rfl, Or.inr hm⟩))
  | asks =>
    obtain rfl := Option.some.inj he
    exact Or.inr (Or.inr (Or.inr (Or.inr (Or.inl rfl))))
  | admits state _ member =>
    obtain rfl := Option.some.inj he
    exact Or.inr (Or.inr (Or.inr (Or.inr (Or.inr ⟨_, _, state, member, rfl⟩))))
  | acknowledges | accepts =>
    obtain rfl := Option.some.inj he
    exact Or.inr (Or.inr (Or.inr (Or.inl ⟨_, rfl⟩)))
  | hearsListening _ _ _ makes | hearsAlone _ _ _ makes | hearsHolding _ _ _ _ makes
  | hearsGiving _ _ _ makes =>
    cases makes
    all_goals first
      | obtain rfl := Option.some.inj he
        exact Or.inr (Or.inr (Or.inr (Or.inl ⟨_, rfl⟩)))
      | exact absurd he nofun
  | _ => exact absurd he nofun

/-- **Whoever sends a payload or an offer goes on as the master.** -/
theorem Acts.isMaster_of_emission {x : Emission} (h : n.Acts clock heard n' e t) (he : e = some x)
    (hx : x.message.tag = .data ∨ x.message.tag = .retry ∨ x.message.tag = .turn) :
    t.next.isMaster = true := by
  rcases h.of_emission he with ⟨-, -, ht, -⟩ | ⟨-, -, ht, -⟩ | ⟨taker, ht, -⟩ | ⟨echo, hm⟩ | hm |
    ⟨joiner, session, -, -, hm⟩
  · rw [ht]; rfl
  · rw [ht]; rfl
  · rw [ht]; rfl
  all_goals
    rw [hm] at hx
    rcases hx with hx | hx | hx <;> exact absurd hx nofun

/-- What is put aside has been heard, now or before. -/
theorem Acts.of_deferred (h : n.Acts clock heard n' e t) (hm : n'.deferred = some m) :
    n.deferred = some m ∨ heard = some m := by
  cases h with
  | waitsToReply =>
    dsimp only at hm
    cases hd : n.deferred <;> rw [hd] at hm
    · exact Or.inr hm
    · exact Or.inl hm
  | admits => split at hm <;> exact Or.inl hm
  | speaks | rescans | strays => exact absurd hm nofun
  | hearsListening _ _ _ makes => cases makes <;> exact absurd hm nofun
  | hearsAlone _ _ _ makes => cases makes <;> first | exact Or.inl hm | exact absurd hm nofun
  | hearsHolding _ _ _ hears makes =>
    cases makes with
    | yields => exact Or.inr (hears.trans hm)
    | _ => exact Or.inl hm
  | hearsGiving _ _ hears makes =>
    cases makes with
    | handsOff | drops => exact Or.inr (hears.trans hm)
    | _ => exact Or.inl hm
  | _ => exact Or.inl hm

end Node

/-! ## Taking a step -/

/-- **No step fails** but on the way into a network, out of one, or into being alone. -/
theorem Station.exists_step_of_state {α ρ : Type} [Application α] [Radio ρ] {s : Station α}
    (hreq : s.node.state ≠ .requesting) (hfound : s.node.state ≠ .founding)
    (halone : s.node.state ≠ .alone)
    (hoffer : s.node.state = .offering → ∃ taker, s.node.table.successor s.node.own = some taker)
    (radio : ρ) (clock : Readings) : ∃ p, s.step radio clock = .ok p := by
  have hreact : ∃ r, s.node.react s.app clock (s.hear radio clock.start).1 = .ok r := by
    unfold Node.react
    split
    · exact absurd ‹_› hreq
    all_goals exact ⟨_, rfl⟩
  obtain ⟨r, hr⟩ := hreact
  refine exists_step hr fun taken => Reaction.exists_finish (Or.inl fun hnext => ?_) taken _
  rcases (Node.acts_of_react hr).of_next_alone hnext with ⟨hs, -⟩ | ⟨hs, hnone, -⟩ | ⟨hs, -⟩
  · exact hfound hs
  · obtain ⟨taker, htaker⟩ := hoffer hs
    exact absurd (hnone.symm.trans htaker) nofun
  · exact halone hs

end RadioRing
