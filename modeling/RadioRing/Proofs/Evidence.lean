import RadioRing.Proofs.Isolation

/-!
# Proofs/Evidence — nobody gets into the ring, or out of it, without grounds

Every change of a table is a mark of some act, and `Acts.grounds` names **the grounds of every mark**:
a frame that shows its sender, or somebody whom it names, to be a member (`Node.Shows`), a request
that the node has just answered, an offer that nobody took, or a silence that grew too long.  Two of
them refer to what happened before the step, which `Moment.Since` tells: the offers of the token
since it went to a taker (`Run.offered`), and the request since the node waits to answer it
(`Run.asked`).
-/

namespace RadioRing

/-! ## Marks and flags -/

namespace Membership

/-- **A flag that some marks change is set by one of them.** -/
theorem mem_of_isEligible_markAll_ne {a : Address} {marks : List Mark} : ∀ {m : Membership},
    (m.markAll marks).isEligible a ≠ m.isEligible a →
      ⟨a, (m.markAll marks).isEligible a⟩ ∈ marks := by
  induction marks with
  | nil => exact fun h => absurd rfl h
  | cons x rest ih =>
    intro m h
    change ((m.mark x.node x.eligible).markAll rest).isEligible a ≠ m.isEligible a at h
    change ⟨a, ((m.mark x.node x.eligible).markAll rest).isEligible a⟩ ∈ x :: rest
    by_cases later : ((m.mark x.node x.eligible).markAll rest).isEligible a =
        (m.mark x.node x.eligible).isEligible a
    · -- The first mark does it, and the table is about `a`, or the flag would be down before and after.
      rw [later, isEligible_mark] at h ⊢
      split at h
      · rename_i same
        subst same
        cases known : m.contains x.node with
        | true => simp
        | false =>
          rw [known, Bool.false_and] at h
          have out : m.isEligible x.node = false := Bool.eq_false_iff.2 fun isIn => by
            rw [contains_of_isEligible isIn] at known
            exact absurd known nofun
          exact absurd out.symm h
      · exact absurd rfl h
    · exact List.mem_cons_of_mem x (ih later)

/-- The eligible address that is found first is the lowest one, but for `own`. -/
theorem le_of_find?_ne {m : Membership} {own a : Address}
    (h : m.eligible.find? (· ≠ own) = some a) :
    ∀ b, m.isEligible b = true → b ≠ own → a ≤ b := by
  obtain ⟨-, before, after, split, skipped⟩ := List.find?_eq_some_iff_append.1 h
  have ascending := m.pairwise_eligible
  rw [split, List.pairwise_append, List.pairwise_cons] at ascending
  intro b hb hne
  rw [← mem_eligible, split, List.mem_append, List.mem_cons] at hb
  rcases hb with skip | rfl | later
  · exact absurd hne (by simpa using skipped b skip)
  · exact Address.le_iff.2 (Nat.le_refl _)
  · exact Address.le_iff.2 (Nat.le_of_lt (Address.lt_iff.1 (ascending.2.1.1 b later)))

end Membership

namespace Node

variable {n n' : Node} {clock : Readings} {heard : Option Inbound} {e : Option Emission}
  {t : Transition} {m : Inbound} {a : Address}

/-- The message shows the node that `a` is on the air and a member of its network. -/
inductive Shows (n : Node) (m : Inbound) (a : Address) : Prop
  /-- `a` sent a payload or an echo. -/
  | alive (message : (∃ round, m.Carries round) ∨ m.message.tag = .ack) (sender : m.sender = a)
  /-- `a` sent an offer or an answer in the network of the node. -/
  | member {session : Session} (names : m.message.session? = some session)
      (same : n.session = some session) (sender : m.sender = a)
  /-- `a` was admitted to the network of the node. -/
  | admitted {session : Session} {round : UInt32} {handsOver : Bool} {members : List Address}
      (message : m.message = .joinAck a session round handsOver members)
      (same : n.session = some session)
  /-- `a` admits the node, or is a member of the network that the node is admitted to. -/
  | admits {session : Session} {round : UInt32} {handsOver : Bool} {members : List Address}
      (state : n.state = .awaitingAdmission)
      (message : m.message = .joinAck n.own session round handsOver members)
      (of : m.sender = a ∨ a ∈ members)

/-- **Whoever a message readmits is shown by it.** -/
theorem shows_of_mem_readmission {x : Mark} (h : x ∈ n.readmission m) :
    x.eligible = true ∧ n.Shows m x.node := by
  refine ⟨eligible_of_mem_readmission h, ?_⟩
  have readmits (alive : Bool) (hx : x ∈ if alive ∧ ¬n.table.isEligible m.sender
      then [(⟨m.sender, true⟩ : Mark)] else []) : alive = true ∧ m.sender = x.node := by
    split at hx
    · exact ⟨(‹alive ∧ _› : _ ∧ _).1, (congrArg Mark.node (List.mem_singleton.1 hx)).symm⟩
    · exact absurd hx List.not_mem_nil
  unfold readmission at h
  cases message : m.message <;> rw [message] at h <;> obtain ⟨alive, sender⟩ := readmits _ h
  case data round body => exact .alive (Or.inl ⟨round, body, Or.inl message⟩) sender
  case retry round body => exact .alive (Or.inl ⟨round, body, Or.inr message⟩) sender
  case ack => exact .alive (Or.inr (congrArg Message.tag message)) sender
  case turn =>
    exact .member (congrArg Message.session? message) (of_decide_eq_true alive) sender
  case joinAck =>
    exact .member (congrArg Message.session? message) (of_decide_eq_true alive) sender
  case joinRequest => exact absurd alive Bool.false_ne_true

/-- Whom a node takes for dead: the holder, if it takes a peer for it, or else the first peer. -/
theorem holder_of_presumedDead? (h : n.presumedDead? = some a) : n.presumedHolder = some a ∨
    (∀ b ∈ n.presumedHolder, b = n.own) ∧
      ∀ b, n.table.isEligible b = true → b ≠ n.own → a ≤ b := by
  unfold presumedDead? at h
  split at h
  · rename_i holder known
    split at h
    · exact Or.inl (known.trans h)
    · rename_i own
      rw [ne_eq, Decidable.not_not] at own
      refine Or.inr ⟨fun b hb => ?_, Membership.le_of_find?_ne h⟩
      exact (Option.some.inj (known.symm.trans hb)).symm.trans own
  · rename_i unknown
    exact Or.inr ⟨fun b hb => absurd (unknown.symm.trans hb) nofun, Membership.le_of_find?_ne h⟩

/-! ## The grounds of a mark -/

/-- The grounds on which an act changes a flag. -/
inductive Grounds (n : Node) (clock : Readings) (heard : Option Inbound) (e : Option Emission)
    (t : Transition) : Mark → Prop
  /-- The node has a network now. -/
  | own : Grounds n clock heard e t ⟨n.own, true⟩
  /-- It was shown `a`. -/
  | shown {m : Inbound} {a : Address} (regards : n.regards heard = some m)
      (early : n.state = .listening → n.timers.watchdog.elapsed clock.start = false)
      (free : n.state.isReplying = false) (shows : n.Shows m a) :
      Grounds n clock heard e t ⟨a, true⟩
  /-- It answers the request of `a`. -/
  | answers {session : Session} {a : Address} (state : n.state = .admitting a)
      (due : n.timers.reply.elapsed clock.start = true) (member : n.session = some session)
      (answer : e = some (.toAll (n.answerFor session a) .admission))
      (next : t.next = .listening) : Grounds n clock heard e t ⟨a, true⟩
  /-- Its offers to `a` are used up. -/
  | spent {a : Address} (state : n.state = .awaitingTaker a)
      (due : n.timers.offerRetry.elapsed clock.start = true)
      (spent : n.settings.offerRetryLimit.toNat ≤ n.offerRetries)
      (only : t.marks = [⟨a, false⟩]) : Grounds n clock heard e t ⟨a, false⟩
  /-- It has heard nothing for too long, and takes `a` for the holder. -/
  | silent {a : Address} (state : n.state = .listening)
      (due : n.timers.watchdog.elapsed clock.start = true) (presumed : n.presumedDead? = some a)
      (only : t.marks = [⟨a, false⟩]) : Grounds n clock heard e t ⟨a, false⟩

/-- A state that does not listen to the ring first looks at what it hears. -/
theorem Grounds.shown_of_heard {s : State} (state : n.state = s) (other : s ≠ .listening)
    (free : s.isReplying = false) (hears : heard = some m) (shows : n.Shows m a) :
    n.Grounds clock heard e t ⟨a, true⟩ := by
  subst state
  exact .shown ((regards_of_ne_listening other heard).trans hears) (absurd · other) free shows

theorem Grounds.of_mem_readmission
    (shown : ∀ {a}, n.Shows m a → n.Grounds clock heard e t ⟨a, true⟩) {x : Mark}
    (hx : x ∈ n.readmission m) : n.Grounds clock heard e t x := by
  obtain ⟨a, eligible⟩ := x
  obtain ⟨rfl, shows⟩ := shows_of_mem_readmission hx
  exact shown shows

/-- **No act makes a mark without grounds.** -/
theorem Acts.grounds (h : n.Acts clock heard n' e t) :
    ∀ x ∈ t.marks, n.Grounds clock heard e t x := by
  intro x hx
  cases h with
  | joins state hears message =>
    simp only [Transition.marks_withMarks, Transition.marks_mark, Transition.marks_goTo,
      List.mem_append, List.mem_map, List.mem_singleton, List.not_mem_nil, false_or] at hx
    rcases hx with (rfl | rfl) | ⟨a, ha, rfl⟩
    · exact .own
    · exact .shown_of_heard state nofun rfl hears (.admits state message (Or.inl rfl))
    · exact .shown_of_heard state nofun rfl hears (.admits state message (Or.inr ha))
  | founds => exact List.mem_singleton.1 hx ▸ .own
  | admits state due member =>
    simp only [Transition.marks_mark, Transition.marks_goTo, List.mem_append, List.mem_singleton,
      List.not_mem_nil, false_or] at hx
    rcases hx with rfl | rfl
    · exact .own
    · exact .answers state due member rfl rfl
  | claims state due presumed | passesOver state due presumed =>
    exact List.mem_singleton.1 hx ▸ .silent state due presumed rfl
  | stopsOffering state due spent => exact List.mem_singleton.1 hx ▸ .spent state due spent rfl
  | @hearsListening m _ _ _ state early hears makes =>
    have shown {a : Address} (shows : n.Shows m a) : n.Grounds clock heard e t ⟨a, true⟩ :=
      .shown ((regards_of_listening state heard).trans hears) (fun _ => early)
        (by rw [state]; rfl) shows
    cases makes with
    | calledAway | foreignOffer => exact absurd hx List.not_mem_nil
    | learns message same =>
      rcases List.mem_append.1 hx with hx | hx
      · exact .of_mem_readmission shown hx
      · exact List.mem_singleton.1 hx ▸ shown (.admitted message same)
    | _ => exact .of_mem_readmission shown hx
  | hearsAlone state _ hears makes =>
    cases makes with
    | takes message same | declines message same =>
      exact List.mem_singleton.1 hx ▸ .shown_of_heard state nofun rfl hears
        (.member (congrArg Message.session? message) same rfl)
    | _ => exact absurd hx List.not_mem_nil
  | hearsHolding state _ _ hears makes =>
    cases makes <;> exact .of_mem_readmission (.shown_of_heard state nofun rfl hears) hx
  | hearsGiving state _ hears makes =>
    cases makes <;> exact .of_mem_readmission (.shown_of_heard state nofun rfl hears) hx
  | _ => exact absurd hx List.not_mem_nil

/-- **A request makes no mark**: the answer to it does. -/
theorem Acts.marks_of_joinRequest {joiner : Address} (h : n.Acts clock heard n' e t)
    (message : m.message = .joinRequest joiner) (regards : n.regards heard = some m)
    (early : ∃ d ∈ n.awaited?, d.elapsed clock.start = false) : t.marks = [] := by
  have heard_eq {m' : Inbound} (other : n.state ≠ .listening) (hears : heard = some m') :
      m' = m :=
    Option.some.inj (hears.symm.trans ((regards_of_ne_listening other heard).symm.trans regards))
  have readmits : n.readmission m = [] := readmission_joinRequest message
  cases h with
  | joins state hears message' =>
    obtain rfl := heard_eq (by simp [state]) hears
    cases message.symm.trans message'
  | founds state => simp [awaited?, state] at early
  | admits state due | claims state due | passesOver state due | stopsOffering state due =>
    simp [awaited?, state, due] at early
  | hearsListening state _ hears makes =>
    obtain rfl := Option.some.inj (hears.symm.trans (regards_of_listening state heard ▸ regards))
    cases makes with
    | calledAway | foreignOffer => rfl
    | learns message' => cases message.symm.trans message'
    | _ => exact readmits
  | hearsAlone state _ hears makes =>
    obtain rfl := heard_eq (by simp [state]) hears
    cases makes with
    | takes message' | declines message' => cases message.symm.trans message'
    | _ => rfl
  | hearsHolding state _ _ hears makes =>
    obtain rfl := heard_eq (by simp [state]) hears
    cases makes <;> exact readmits
  | hearsGiving state _ hears makes =>
    obtain rfl := heard_eq (by simp [state]) hears
    cases makes <;> exact readmits
  | _ => rfl

/-! ## The waits that a mark goes back to -/

/-- **Who is offered the token is offered it again by the same message**, and each time is counted. -/
theorem Acts.of_awaits_taker {taker : Address} (h : n.Acts clock heard n' e t)
    (next : t.next = .awaitingTaker taker) :
    (n.state = .offering ∧ n'.offerRetries = 0 ∧ ∃ session round,
      n'.offer = some (.turn taker session round) ∧
      e = some (.toAll (.turn taker session round))) ∨
    (n.state = .awaitingTaker taker ∧ n'.offer = n.offer ∧
      (e = n.offer.map (.toAll ·) ∧ n.offerRetries < n.settings.offerRetryLimit.toNat ∧
          n'.offerRetries = n.offerRetries + 1 ∨
        (∀ x ∈ e, x.message.tag = .ack) ∧ n'.offerRetries = n.offerRetries)) := by
  cases h with
  | joins => split at next <;> exact absurd next nofun
  | waitsToReply state =>
    rw [Transition.next_goTo] at next
    rw [next] at state
    exact absurd state nofun
  | idles => exact Or.inr ⟨next, rfl, Or.inr ⟨nofun, rfl⟩⟩
  | offers state =>
    obtain rfl := State.awaitingTaker.inj next
    exact Or.inl ⟨state, rfl, _, _, rfl, rfl⟩
  | offersAgain state due left =>
    obtain rfl := State.awaitingTaker.inj next
    exact Or.inr ⟨state, rfl, Or.inl ⟨rfl, left, rfl⟩⟩
  | hearsGiving state _ _ makes =>
    cases makes with
    | waits =>
      obtain rfl := State.awaitingTaker.inj next
      exact Or.inr ⟨state, rfl, Or.inr ⟨nofun, rfl⟩⟩
    | releases =>
      obtain rfl := State.awaitingTaker.inj next
      refine Or.inr ⟨state, rfl, Or.inr ⟨fun x hx => ?_, rfl⟩⟩
      exact Option.some.inj hx ▸ rfl
    | handsOff | drops => exact absurd next nofun
  | hearsListening _ _ _ makes => cases makes <;> exact absurd next nofun
  | hearsAlone _ _ _ makes => cases makes <;> exact absurd next nofun
  | hearsHolding _ _ _ _ makes => cases makes <;> exact absurd next nofun
  | _ => exact absurd next nofun

/-- A listener that has waited too long speaks or goes on listening. -/
theorem Acts.of_silence (h : n.Acts clock heard n' e t) (state : n.state = .listening)
    (due : n.timers.watchdog.elapsed clock.start = true) :
    t.next = .speaking ∨ t.next = .listening := by
  cases h with
  | claimsUnopposed | claims => exact Or.inl rfl
  | passesOver => exact Or.inr rfl
  | idles => exact Or.inr state
  | waitsToReply replying =>
    rw [state] at replying
    exact absurd replying nofun
  | hearsListening _ early => exact absurd (due.symm.trans early) nofun
  | endsTurn state' =>
    rcases state' with state' | state' <;> exact absurd (state.symm.trans state') nofun
  | _ state' => exact absurd (state.symm.trans state') nofun

end Node

namespace Moment

variable {α : Type}

/-- The step puts `a` out of the ring. -/
def PutsOut (x : Moment α) (a : Address) : Prop :=
  x.before.node.table.isEligible a = true ∧ x.after.node.table.isEligible a = false

/-- The step lets `a` into the ring. -/
def LetsIn (x : Moment α) (a : Address) : Prop :=
  x.before.node.table.isEligible a = false ∧ x.after.node.table.isEligible a = true

instance (x : Moment α) (a : Address) : Decidable (x.PutsOut a) :=
  inferInstanceAs (Decidable (_ ∧ _))

instance (x : Moment α) (a : Address) : Decidable (x.LetsIn a) :=
  inferInstanceAs (Decidable (_ ∧ _))

/-- The step acts on the message: it reads it and does not put it aside. -/
def Handles (x : Moment α) (m : Inbound) : Prop :=
  x.Reads m ∧ x.before.node.state.isReplying = false

instance (x : Moment α) (m : Message) : Decidable (x.Says m) :=
  inferInstanceAs (Decidable (∃ e ∈ x.reaction.emission, e.message = m))

/-- The run ends with `first` and then `wait`, all of it in the state `s`. -/
def Since (run : List (Moment α)) (first : Moment α) (wait : List (Moment α)) (s : State) : Prop :=
  (∃ early, run = early ++ first :: wait) ∧ ∀ y ∈ wait, y.before.node.state = s

theorem Since.start (run : List (Moment α)) (x : Moment α) (s : State) :
    Since (run ++ [x]) x [] s :=
  ⟨⟨run, rfl⟩, List.forall_mem_nil _⟩

theorem Since.step {run wait : List (Moment α)} {first x : Moment α} {s : State}
    (h : Since run first wait s) (hx : x.before.node.state = s) :
    Since (run ++ [x]) first (wait ++ [x]) s := by
  obtain ⟨⟨early, rfl⟩, waits⟩ := h
  exact ⟨⟨early, by simp⟩, List.forall_mem_append.2 ⟨waits, List.forall_mem_singleton.2 hx⟩⟩

/-- Since the run came to offer the token to `taker` with this message, it has sent the message
`again` times more. -/
def Offered (run : List (Moment α)) (taker : Address) (offer : Message) (again : Nat) : Prop :=
  ∃ first wait, Since run first wait (.awaitingTaker taker) ∧
    first.before.node.state = .offering ∧ first.Says offer ∧
    wait.countP (·.Says offer) = again

/-- The run has come to wait for the moment to answer `joiner` because it read a request of it. -/
def Asked (run : List (Moment α)) (joiner : Address) : Prop :=
  ∃ first wait m, Since run first wait (.admitting joiner) ∧ first.Reads m ∧
    m.message = .joinRequest joiner

/-- After this run, the step gives up on `a`: the token was offered to it, all the offers that the
settings allow were made since, and nobody has acknowledged the last one in time. -/
structure GivesUpOn (x : Moment α) (run : List (Moment α)) (a : Address) : Prop where
  waiting : x.before.node.state = .awaitingTaker a
  due : x.before.node.timers.offerRetry.elapsed x.clock.start = true
  offered : ∃ session round,
    Offered run a (.turn a session round) x.before.node.settings.offerRetryLimit.toNat

/-- The step presumes `a` dead: the node has heard nothing for too long, and `a` is the peer that it
takes for the holder, or the first one if it takes no peer for it. -/
structure Presumes (x : Moment α) (a : Address) : Prop where
  listening : x.before.node.state = .listening
  silent : x.before.node.timers.watchdog.elapsed x.clock.start = true
  holder : x.before.node.presumedHolder = some a ∨
    (∀ b ∈ x.before.node.presumedHolder, b = x.before.node.own) ∧
      ∀ b, x.before.node.table.isEligible b = true → b ≠ x.before.node.own → a ≤ b

/-- After this run, the step answers a request that named `a`. -/
structure AnswersRequest (x : Moment α) (run : List (Moment α)) (a : Address) : Prop where
  asked : Asked run a
  waiting : x.before.node.state = .admitting a
  due : x.before.node.timers.reply.elapsed x.clock.start = true
  answers : ∃ session, x.before.node.session = some session ∧
    x.Says (x.before.node.answerFor session a)
  done : x.after.node.state = .listening

variable [Application α] {x : Moment α} {m : Inbound}

theorem Happens.offerRetries_after (h : x.Happens) :
    x.after.node.offerRetries = x.reaction.node.offerRetries := by
  obtain ⟨timers, random, e, a, hn⟩ := h.node_after
  rw [hn]

omit [Application α] in
theorem reads_of_regards (regards : x.Regards m) (early : x.before.node.state = .listening →
    x.before.node.timers.watchdog.elapsed x.clock.start = false) : x.Reads m := by
  unfold Regards Node.regards at regards
  split at regards
  · rename_i listening
    cases deferred : x.before.node.deferred with
    | none =>
      rw [deferred] at regards
      exact Or.inl regards
    | some aside =>
      rw [deferred] at regards
      obtain rfl := Option.some.inj regards
      exact Or.inr ⟨listening, early listening, deferred⟩
  · exact Or.inl regards

/-- **What changes a flag is a mark.** -/
theorem Happens.mem_marks (h : x.Happens) {a : Address} {eligible : Bool}
    (before : x.before.node.table.isEligible a = !eligible)
    (after : x.after.node.table.isEligible a = eligible) :
    ⟨a, eligible⟩ ∈ x.reaction.transition.marks := by
  rw [h.table_after] at after
  subst after
  refine Membership.mem_of_isEligible_markAll_ne fun same => ?_
  rw [same] at before
  exact absurd before (by cases x.before.node.table.isEligible a <;> nofun)

theorem Happens.mem_marks_of_putsOut (h : x.Happens) {a : Address} (out : x.PutsOut a) :
    ⟨a, false⟩ ∈ x.reaction.transition.marks := h.mem_marks out.1 out.2

theorem Happens.mem_marks_of_letsIn (h : x.Happens) {a : Address} (isIn : x.LetsIn a) :
    ⟨a, true⟩ ∈ x.reaction.transition.marks := h.mem_marks isIn.1 isIn.2

end Moment

namespace Station

variable {α : Type} [Application α] {s s₀ : Station α} {run : List (Moment α)}

/-- **The count of repeated offers is true**: it says how often the offer that waits was made again
since the token was offered to the taker, and it stays within the settings. -/
theorem Run.offered (h : s₀.Run run s) (boot : s₀.Booted) : ∀ taker,
    s.node.state = .awaitingTaker taker → ∃ session round,
      s.node.offer = some (.turn taker session round) ∧
      s.node.offerRetries ≤ s.node.settings.offerRetryLimit.toNat ∧
      Moment.Offered run taker (.turn taker session round) s.node.offerRetries := by
  induction h with
  | refl =>
    intro taker state
    obtain ⟨settings, random, -, booted⟩ := boot.node_eq
    rw [booted] at state
    exact absurd state nofun
  | @step run x h hx ih =>
    intro taker state
    rw [hx.offer_after, hx.offerRetries_after, hx.settings_after]
    -- Either the wait begins with this moment, or it goes on with the same offer.
    rcases hx.acts.of_awaits_taker (hx.state_after.symm.trans state) with
      ⟨offering, none, session, round, offer, sends⟩ | ⟨waiting, same, acts⟩
    · rw [none]
      exact ⟨session, round, offer, Nat.zero_le _, x, [], .start run x _, offering,
        ⟨_, sends, rfl⟩, rfl⟩
    · obtain ⟨session, round, offer, within, first, wait, since, offering, sends, count⟩ :=
        ih taker waiting
      refine ⟨session, round, same.trans offer, ?_, first, wait ++ [x], since.step waiting,
        offering, sends, ?_⟩
      · rcases acts with ⟨-, left, retries⟩ | ⟨-, retries⟩ <;> rw [retries]
        · exact left
        · exact within
      · rw [List.countP_append, count, List.countP_singleton]
        rcases acts with ⟨again, -, retries⟩ | ⟨acks, retries⟩ <;> rw [retries]
        · rw [offer] at again
          rw [if_pos (decide_eq_true ⟨_, again, rfl⟩)]
        · have silent : ¬x.Says (.turn taker session round) := fun ⟨e, he, message⟩ => by
            have tag := acks e he
            rw [message] at tag
            exact absurd tag nofun
          rw [if_neg (by simpa using silent), Nat.add_zero]

/-- **Whoever is about to be answered has asked**, and the node has waited to answer since then. -/
theorem Run.asked (h : s₀.Run run s) (boot : s₀.Booted) : ∀ joiner,
    s.node.state = .admitting joiner → Moment.Asked run joiner := by
  induction h with
  | refl =>
    intro joiner state
    obtain ⟨settings, random, -, booted⟩ := boot.node_eq
    rw [booted] at state
    exact absurd state nofun
  | @step run x h hx ih =>
    intro joiner state
    have next := hx.state_after.symm.trans state
    rcases hx.acts.of_next_admitting next with waiting | ⟨m, regards, message⟩
    · obtain ⟨first, wait, m, since, reads⟩ := ih joiner waiting
      exact ⟨first, wait ++ [x], m, since.step waiting, reads⟩
    · refine ⟨x, [], m, .start run x _, Moment.reads_of_regards regards fun listening => ?_,
        message⟩
      -- A listener that has waited too long does not look at a request.
      refine Bool.eq_false_iff.2 fun due => ?_
      rcases hx.acts.of_silence listening due with silence | silence <;>
        exact absurd (next.symm.trans silence) nofun

end Station

/-- **Nobody gets into the ring, or out of it, without grounds.**  A step puts out at most one
address.  It is not the node's own, and it is the one that the node gives up on when it has offered
the token once and as often again as it may, or the one that it presumes dead when it has heard
nothing for too long.  A peer is let in only if the step acts on a message that shows it to be on the
air and a member, or answers a request that named it.  Reading a request changes no flag. -/
theorem membership_grounded {α : Type} [Application α] {s₀ : Station α} {run : List (Moment α)}
    {x : Moment α} (boot : s₀.Booted) (h : s₀.Run run x.before) (hx : x.Happens) :
    (∀ a b, x.PutsOut a → x.PutsOut b → a = b) ∧
    (∀ a, x.PutsOut a → a ≠ x.before.node.own ∧ (x.GivesUpOn run a ∨ x.Presumes a)) ∧
    (∀ a, a ≠ x.before.node.own → x.LetsIn a →
      (∃ m, x.Handles m ∧ x.before.node.Shows m a) ∨ x.AnswersRequest run a) ∧
    ∀ m joiner, x.Reads m → m.message = .joinRequest joiner →
      x.after.node.table = x.before.node.table := by
  have reachable := h.reachable boot.reachable
  have grounds := hx.acts.grounds
  refine ⟨fun a b putsOut putsOut' => ?_, fun a putsOut => ?_, fun a peer letsIn => ?_,
    fun m joiner reads message => ?_⟩
  · have mark := hx.mem_marks_of_putsOut putsOut'
    cases grounds _ (hx.mem_marks_of_putsOut putsOut) with
    | spent _ _ _ only | silent _ _ _ only =>
      rw [only] at mark
      exact (congrArg Mark.node (List.mem_singleton.1 mark)).symm
  · cases grounds _ (hx.mem_marks_of_putsOut putsOut) with
    | spent waiting due spent =>
      obtain ⟨session, round, -, within, offered⟩ := h.offered boot a waiting
      exact ⟨(reachable.isEligible_taker a waiting).2, Or.inl ⟨waiting, due, session, round,
        Nat.le_antisymm within spent ▸ offered⟩⟩
    | silent listening due presumed =>
      exact ⟨Node.ne_own_of_presumedDead? presumed,
        Or.inr ⟨listening, due, Node.holder_of_presumedDead? presumed⟩⟩
  · have mark := hx.mem_marks_of_letsIn letsIn
    generalize hm : (⟨a, true⟩ : Mark) = y at mark
    cases grounds y mark with
    | own => exact absurd (congrArg Mark.node hm) peer
    | shown regards early free shows =>
      obtain rfl := congrArg Mark.node hm
      exact Or.inl ⟨_, ⟨Moment.reads_of_regards regards early, free⟩, shows⟩
    | answers waiting due member answer next =>
      obtain rfl := congrArg Mark.node hm
      exact Or.inr ⟨h.asked boot _ waiting, waiting, due, ⟨_, member, _, answer, rfl⟩,
        hx.state_after.trans next⟩
    | spent | silent => exact absurd (congrArg Mark.eligible hm) nofun
  · obtain ⟨regards, early⟩ := hx.regards_of_reads reads
    rw [hx.table_after, hx.acts.marks_of_joinRequest message regards early]
    rfl

/-- What the forsaken node does, seen from its step `i`. -/
theorem run_forsaken (i : Fin forsaken.2.1.length) : forsaken.1.Booted ∧
    forsaken.1.Run (forsaken.2.1.take i) (forsaken.2.1.get i).before ∧
    (forsaken.2.1.get i).Happens := by
  obtain ⟨boot, hrun⟩ := Station.run_of_played? (p := forsaken)
    (Option.some_get isSome_forsaken?).symm
  have split := Station.eq_take_append_get forsaken.2.1 i
  rw [split] at hrun
  obtain ⟨before, happens, -⟩ := hrun.of_middle
  exact ⟨boot, before, happens⟩

theorem putsOut_forsaken : ∃ h : 8 < forsaken.2.1.length,
    let x := forsaken.2.1.get ⟨8, h⟩
    x.PutsOut ⟨2⟩ ∧ x.before.node.state ≠ .listening ∧
      x.before.node.settings.offerRetryLimit.toNat = 3 := by
  decide +kernel

theorem letsIn_forsaken : ∃ h : 10 < forsaken.2.1.length,
    let x := forsaken.2.1.get ⟨10, h⟩
    x.LetsIn ⟨2⟩ ∧ x.before.node.state ≠ .admitting ⟨2⟩ ∧ ⟨2⟩ ≠ x.before.node.own := by
  decide +kernel

/-- Node 1 has offered the token to node 2 four times when it puts node 2 out, and acts on a message
of node 2 when it lets node 2 in again. -/
theorem grounds_of_forsaken :
    (∃ session round, Moment.Offered (forsaken.2.1.take 8) ⟨2⟩ (.turn ⟨2⟩ session round) 3) ∧
    ∃ x ∈ forsaken.2.1, ∃ m, x.LetsIn ⟨2⟩ ∧ x.Handles m ∧ x.before.node.Shows m ⟨2⟩ := by
  constructor
  · obtain ⟨h, putsOut, attentive, limit⟩ := putsOut_forsaken
    obtain ⟨boot, hrun, hx⟩ := run_forsaken ⟨8, h⟩
    obtain ⟨-, out, -, -⟩ := membership_grounded boot hrun hx
    obtain ⟨-, gives | presumes⟩ := out _ putsOut
    · exact limit ▸ gives.offered
    · exact absurd presumes.listening attentive
  · obtain ⟨h, letsIn, alone, peer⟩ := letsIn_forsaken
    obtain ⟨boot, hrun, hx⟩ := run_forsaken ⟨10, h⟩
    obtain ⟨-, -, lets, -⟩ := membership_grounded boot hrun hx
    rcases lets _ peer letsIn with ⟨m, shown⟩ | answers
    · exact ⟨_, List.get_mem _ _, m, letsIn, shown⟩
    · exact absurd answers.waiting alone

end RadioRing
