import RadioRing.Proofs.Contest

/-!
# Proofs/Twins — what a node does when it hears of another token

`Twins` are two tokens of one network, each at its node, with the frames that tell of them.  A node
that hears only the frame of the other token, and acknowledgements of its own, and whose time is
not up, does one of three things: it **keeps its token**, if the other one is not better (`Keeps`);
it **waits for its taker**, if the other node has not answered (`Waits`); or it **lags behind**,
until it hears of a newer token that is offered to it (`Lags`).
-/

namespace RadioRing

/-- Two tokens of one network: the nodes where they are, their rounds, and the frames that tell of
them. -/
structure Twins where
  own : Bool → Address
  apart : ∀ i, own (!i) ≠ own i
  session : Session
  round : Bool → UInt32
  /-- Neither of them is of the last round. -/
  few : ∀ i, (round i).toNat < lastRound
  frame : Bool → Message
  tells : ∀ i, (∃ body, frame i = .data (round i) body ∨ frame i = .retry (round i) body) ∨
    ∃ taker, frame i = .turn taker session (round i)

/-- None of the deadlines by which a node gives something up has been reached. -/
structure Node.Calm (n : Node) (now : Timestamp) : Prop extends n.Unhurried now where
  offer : ∀ taker, n.state = .awaitingTaker taker → n.timers.offerRetry.elapsed now = false

namespace Twins

variable (d : Twins)

/-- The token is offered to somebody. -/
def Offers (i : Bool) : Prop := ∃ taker, d.frame i = .turn taker d.session (d.round i)

/-- What the node of token `i` can hear: the frame of the other token, and acknowledgements of its
own. -/
structure Hears (i : Bool) (m : Inbound) : Prop where
  sender : m.sender = d.own (!i)
  raw : m.raw = m.message.encode
  said : m.message = d.frame (!i) ∨ m.message = .ack (d.frame i).encode

/-- The states of a node that is in the ring; it acknowledges nothing but the frame of the other
token. -/
def Place (i : Bool) : State → Prop
  | .listening | .speaking | .awaitingEcho | .repeating | .offering | .awaitingTaker _ => True
  | .acknowledging _ echo | .accepting _ echo => echo = (d.frame (!i)).encode
  | _ => False

/-- What is true of the node of token `i`. -/
structure Fits (i : Bool) (n : Node) : Prop where
  own : n.own = d.own i
  session : n.session = some d.session
  eligible : n.table.isEligible (d.own (!i)) = true
  deferred : ∀ m ∈ n.deferred, d.Hears i m
  place : d.Place i n.state

/-- The other token does not beat one of round `held` at the node of token `i`, which is not older
than token `i`. -/
structure Ranks (i : Bool) (held : UInt32) : Prop where
  other : (d.round (!i)).toNat < held.toNat ∨
    (d.round (!i)).toNat = held.toNat ∧ (d.Offers (!i) ∨ d.own i < d.own (!i))
  own : (d.round i).toNat ≤ held.toNat

/-- An offer of the node of token `i` that nothing it can hear will end. -/
structure Stands (i : Bool) (taker : Address) (round : UInt32) : Prop where
  other : (d.round (!i)).toNat < round.toNat ∨
    (d.round (!i)).toNat = round.toNat ∧ d.Offers (!i)
  /-- The other node acknowledges token `i` and no other one. -/
  foreign : taker = d.own (!i) → (Message.turn taker d.session round).encode ≠ (d.frame i).encode

/-- The node of token `i` has a token that it will not lose to the other one. -/
def Keeps (i : Bool) (n : Node) : Prop :=
  match n.state with
  | .accepting .. | .speaking => d.Ranks i n.rounds.held
  | .awaitingEcho | .repeating | .offering => d.Ranks i n.rounds.held ∧ n.offer = none
  | .awaitingTaker taker =>
    ∃ round, n.offer = some (.turn taker d.session round) ∧ d.Stands i taker round
  | _ => False

/-- What a reaction of the node of token `i` leads to: a node that fits, with its table as it was,
which has answered nothing but the frame of the other token and has not lost what it keeps. -/
structure Leads {α : Type} (i : Bool) (n : Node) (r : Reaction α) : Prop where
  fits : d.Fits i { r.node with state := r.transition.next }
  marks : r.transition.marks = []
  answers : ∀ e ∈ r.emission, ∀ echo, e.message = .ack echo → echo = (d.frame (!i)).encode
  keeps : d.Keeps i n → d.Keeps i { r.node with state := r.transition.next }

/-! ## What is heard -/

section Hearing

variable {d} {i : Bool} {n : Node} {m : Inbound}

/-- The frame of the other token is a payload or an offer, and all else is an acknowledgement. -/
theorem Hears.cases (hm : d.Hears i m) :
    m.Carries (d.round (!i)) ∧ ¬d.Offers (!i) ∨
    (∃ taker, m.message = .turn taker d.session (d.round (!i)) ∧
      d.frame (!i) = .turn taker d.session (d.round (!i))) ∨
    m.message = .ack (d.frame i).encode := by
  rcases hm.said with h | h
  · rcases d.tells (!i) with ⟨body, hf⟩ | ⟨taker, hf⟩
    · refine Or.inl ⟨⟨body, by rwa [h]⟩, fun ⟨taker, ht⟩ => ?_⟩
      rcases hf with hf | hf <;> exact absurd (hf.symm.trans ht) nofun
    · exact Or.inr (Or.inl ⟨taker, h.trans hf, hf⟩)
  · exact Or.inr (Or.inr h)

/-- What is no acknowledgement is the frame of the other token. -/
theorem Hears.raw_eq (hm : d.Hears i m) (h : m.message.tag ≠ .ack) :
    m.raw = (d.frame (!i)).encode := by
  rcases hm.said with hf | ha
  · rw [hm.raw, hf]
  · exact absurd (congrArg Message.tag ha) h

/-- Whoever is heard has its place in the table already. -/
theorem Fits.isEligible_sender (h : d.Fits i n) (hm : d.Hears i m) :
    n.table.isEligible m.sender = true := by
  rw [hm.sender]
  exact h.eligible

theorem Fits.readmission_eq_nil (h : d.Fits i n) (hm : d.Hears i m) : n.readmission m = [] :=
  Node.readmission_eq_nil (h.isEligible_sender hm)

end Hearing

/-! ## What each rule leads to -/

section Rules

variable {d} {α : Type} {i : Bool} {n : Node} {app : α} {r : Reaction α} {heard : Option Inbound}
  {m : Inbound}

/-- A reaction that leaves the node in its ring leads to what its state makes of it. -/
theorem Fits.leads (h : d.Fits i n) (settings : r.node.settings = n.settings)
    (table : r.node.table = n.table) (session : r.node.session = n.session)
    (deferred : ∀ m ∈ r.node.deferred, d.Hears i m) (marks : r.transition.marks = [])
    (place : d.Place i r.transition.next)
    (answers : ∀ e ∈ r.emission, ∀ echo, e.message = .ack echo → echo = (d.frame (!i)).encode)
    (keeps : d.Keeps i n → d.Keeps i { r.node with state := r.transition.next }) :
    d.Leads i n r := by
  refine ⟨⟨?_, session.trans h.session, ?_, deferred, place⟩, marks, answers, keeps⟩
  · rw [← h.own]
    exact congrArg Settings.node settings
  · rw [← h.eligible]
    exact congrArg (Membership.isEligible · _) table

/-- An acknowledgement of the frame of the other token answers nothing else. -/
theorem answers_ack {dest : Address} {echo : Bytes} (h : echo = (d.frame (!i)).encode) :
    ∀ e ∈ some (Emission.ack dest echo), ∀ echo', e.message = .ack echo' →
      echo' = (d.frame (!i)).encode := by
  intro e he echo' hm
  obtain rfl := Option.some.inj he
  exact (Message.ack.inj hm).symm.trans h

/-- A node that has nothing has nothing to lose. -/
theorem not_keeps_of_state (hs : n.state = .listening ∨ ∃ h e, n.state = .acknowledging h e) :
    ¬d.Keeps i n := by
  intro hk
  unfold Keeps at hk
  rcases hs with hs | ⟨h, e, hs⟩ <;> rw [hs] at hk <;> exact hk.elim

/-- Whoever acknowledges the frame of the other token has no token to keep. -/
theorem leads_acknowledge {holder : Address} {echo : Bytes} {start : Timestamp}
    (h : d.Fits i n) (hs : n.state = .acknowledging holder echo)
    (hm : ∀ m ∈ heard, d.Hears i m) : d.Leads i n (n.acknowledge app holder echo start heard) := by
  have hecho : echo = (d.frame (!i)).encode := by
    have hplace := h.place
    rwa [hs] at hplace
  have hnot : ¬d.Keeps i n := not_keeps_of_state (Or.inr ⟨_, _, hs⟩)
  unfold Node.acknowledge
  split
  · cases heard with
    | none => exact h.leads rfl rfl rfl h.deferred rfl hecho nofun (absurd · hnot)
    | some m =>
      obtain ⟨deferred, dropped, hput, hdeferred⟩ := n.fst_putAside m
      dsimp only
      rw [hput]
      refine h.leads rfl rfl rfl ?_ rfl hecho nofun (absurd · hnot)
      rcases hdeferred with rfl | rfl
      · exact h.deferred
      · exact hm
  · exact h.leads rfl rfl rfl h.deferred rfl trivial (answers_ack hecho) (absurd · hnot)

/-- What a listener can hear leaves it in the ring, and makes it answer the other frame only. -/
theorem Fits.leads_hearAsListener [Application α] (h : d.Fits i n) (hs : n.state = .listening)
    (app : α) (hm : d.Hears i m) : d.Leads i n (n.hearAsListener app m) := by
  have hnot : ¬d.Keeps i n := not_keeps_of_state (Or.inl hs)
  have hmarks := h.readmission_eq_nil hm
  rcases hm.cases with ⟨hcarries, -⟩ | ⟨taker, hmes, -⟩ | hmes
  · obtain ⟨delivered, app', events, he⟩ := n.hearAsListener_carries app hcarries
    rw [he]
    have hraw := hm.raw_eq hcarries.tag_ne_ack
    exact h.leads rfl rfl rfl h.deferred hmarks hraw nofun (absurd · hnot)
  · have hraw : m.raw = (d.frame (!i)).encode := hm.raw_eq (by rw [hmes]; nofun)
    unfold Node.hearAsListener Node.hearOffer
    simp only [hmes, h.session, ne_eq, not_true_eq_false, if_false, hmarks]
    split
    · exact h.leads rfl rfl h.session.symm h.deferred rfl trivial nofun (absurd · hnot)
    · split
      · exact h.leads rfl rfl h.session.symm h.deferred rfl hraw nofun (absurd · hnot)
      · exact h.leads rfl rfl rfl h.deferred rfl trivial (answers_ack hraw) (absurd · hnot)
  · unfold Node.hearAsListener
    simp only [hmes, hmarks]
    exact h.leads rfl rfl rfl h.deferred rfl trivial nofun (absurd · hnot)

/-- Whatever a listener looks at, put aside or not, comes from the other node. -/
theorem Fits.hears_of_or (h : d.Fits i n) (hm : ∀ m ∈ heard, d.Hears i m)
    (hheard : n.deferred.or heard = some m) : d.Hears i m := by
  rcases Option.or_eq_some_iff.1 hheard with hd | ⟨-, hh⟩
  · exact h.deferred m hd
  · exact hm m hh

theorem Fits.awake (h : d.Fits i n) (now : Timestamp) : d.Fits i (n.awake now) :=
  ⟨h.own, h.session, h.eligible, nofun, h.place⟩

/-- A listener looks at what it hears or had put aside; either is from the other node. -/
theorem leads_listen [Application α] {clock : Readings} (h : d.Fits i n)
    (hs : n.state = .listening) (hw : n.timers.watchdog.elapsed clock.start = false)
    (hm : ∀ m ∈ heard, d.Hears i m) : d.Leads i n (n.listen app clock heard) := by
  have hnot : ¬d.Keeps i n := not_keeps_of_state (Or.inl hs)
  rw [Node.listen_eq app heard hw]
  cases hheard : n.deferred.or heard with
  | none => exact h.leads rfl rfl rfl h.deferred rfl trivial nofun (absurd · hnot)
  | some m =>
    obtain ⟨hfits, hmarks, hanswers, -⟩ :=
      (h.awake clock.heard).leads_hearAsListener hs app (h.hears_of_or hm hheard)
    exact ⟨hfits, hmarks, hanswers, (absurd · hnot)⟩

theorem leads_acceptToken {giver : Address} {echo : Bytes} (h : d.Fits i n)
    (hs : n.state = .accepting giver echo) : d.Leads i n (n.acceptToken app giver echo) := by
  have hecho : echo = (d.frame (!i)).encode := by
    have hplace := h.place
    rwa [hs] at hplace
  refine h.leads rfl rfl rfl h.deferred rfl trivial (answers_ack hecho) fun hk => ?_
  unfold Keeps at hk
  rw [hs] at hk
  exact hk

theorem leads_speak [Application α] {start : Timestamp} (h : d.Fits i n)
    (hs : n.state = .speaking) : d.Leads i n (n.speak app start) := by
  refine h.leads rfl rfl rfl nofun rfl trivial ?_ fun hk => ?_
  · intro e he echo hm
    obtain rfl := Option.some.inj he
    exact absurd hm nofun
  · unfold Keeps at hk
    rw [hs] at hk
    exact ⟨hk, rfl⟩

/-- A node that has its turn goes on with it. -/
theorem Fits.leads_turn (h : d.Fits i n)
    (hs : n.state = .awaitingEcho ∨ n.state = .repeating)
    (settings : r.node.settings = n.settings) (table : r.node.table = n.table)
    (session : r.node.session = n.session) (deferred : r.node.deferred = n.deferred)
    (offer : r.node.offer = n.offer) (held : n.rounds.held.toNat ≤ r.node.rounds.held.toNat)
    (marks : r.transition.marks = [])
    (next : r.transition.next = .awaitingEcho ∨ r.transition.next = .repeating ∨
      r.transition.next = .offering)
    (answers : ∀ e ∈ r.emission, ∀ echo, e.message = .ack echo →
      echo = (d.frame (!i)).encode) : d.Leads i n r := by
  refine h.leads settings table session ?_ marks ?_ answers fun hk => ?_
  · rw [deferred]
    exact h.deferred
  · rcases next with hn | hn | hn <;> rw [hn] <;> trivial
  · have hk : d.Ranks i n.rounds.held ∧ n.offer = none := by
      unfold Keeps at hk
      rcases hs with hs | hs <;> rwa [hs] at hk
    obtain ⟨⟨hother, hown⟩, hoffer⟩ := hk
    have hranks : d.Ranks i r.node.rounds.held := by
      refine ⟨?_, Nat.le_trans hown held⟩
      rcases Nat.lt_or_eq_of_le held with hlt | heq
      · exact Or.inl (by omega)
      · rwa [← heq]
    unfold Keeps
    rcases next with hn | hn | hn <;> simp only [hn] <;> exact ⟨hranks, offer.trans hoffer⟩

/-- A node that keeps its token hears of none that makes it yield. -/
theorem Ranks.not_outranked (h : d.Ranks i n.rounds.held) (hown : n.own = d.own i)
    (hother : ¬d.Offers (!i)) : ¬n.outranked (d.round (!i)) (d.own (!i)) = true := by
  rw [Node.outranked_iff, hown]
  rintro (hlt | ⟨heq, hlt⟩)
  · rw [UInt32.lt_iff_toNat_lt] at hlt
    rcases h.other with h' | h' <;> omega
  · rcases h.other with h' | ⟨-, h' | h'⟩
    · rw [heq] at h'
      exact absurd h' (Nat.lt_irrefl _)
    · exact hother h'
    · rw [Address.lt_iff] at h' hlt
      omega

/-- Giving the turn up is all that a node can do about a better token. -/
theorem Fits.leads_yield (h : d.Fits i n) (hm : d.Hears i m)
    (hlost : ¬d.Keeps i n) : d.Leads i n (n.yieldTo app m) :=
  h.leads rfl rfl rfl (fun _ hm' => Option.some.inj hm' ▸ hm) (h.readmission_eq_nil hm) trivial
    nofun (absurd · hlost)

/-- **A holder that keeps its token goes on with it**, whichever of the frames it hears. -/
theorem leads_hearAsHolder (h : d.Fits i n) (hs : n.state = .awaitingEcho) (hm : d.Hears i m) :
    d.Leads i n (n.hearAsHolder app m) := by
  have hmarks := h.readmission_eq_nil hm
  have ranks : d.Keeps i n → d.Ranks i n.rounds.held := by
    intro hk
    unfold Keeps at hk
    rw [hs] at hk
    exact hk.1
  have stays := fun (r : Reaction α) => h.leads_turn (Or.inl hs) (r := r)
  rcases hm.cases with ⟨hcarries, hother⟩ | ⟨taker, hmes, -⟩ | hmes
  · rw [Node.hearAsHolder_carries app hcarries (h.isEligible_sender hm), hm.sender]
    split
    · rename_i hout
      exact h.leads_yield hm fun hk => (ranks hk).not_outranked h.own hother hout
    · exact stays _ rfl rfl rfl rfl rfl (Nat.le_refl _) rfl (Or.inl rfl) nofun
  · have hraw : m.raw = (d.frame (!i)).encode := hm.raw_eq (by rw [hmes]; nofun)
    unfold Node.hearAsHolder
    simp only [hmes, h.session, ne_eq, not_true_eq_false, if_false, hmarks]
    split
    · refine stays _ rfl rfl h.session.symm rfl rfl ?_ rfl (Or.inl rfl) (answers_ack hraw)
      rw [Rounds.toNat_held_accept]
      exact Nat.le_max_left _ _
    · split
      · rename_i hlt
        refine h.leads_yield hm fun hk => ?_
        rw [UInt32.lt_iff_toNat_lt] at hlt
        rcases (ranks hk).other with h' | ⟨h', -⟩ <;> omega
      · exact stays _ rfl rfl rfl rfl rfl (Nat.le_refl _) rfl (Or.inl rfl) nofun
  · unfold Node.hearAsHolder
    simp only [hmes, hmarks]
    repeat' split
    all_goals refine stays _ rfl rfl rfl rfl rfl (Nat.le_refl _) rfl ?_ nofun
    · exact Or.inl rfl
    · exact Or.inr (Or.inr rfl)
    · exact Or.inr (Or.inl rfl)
    · exact Or.inl rfl

/-- A turn that ends by the clock or by an echo loses no token. -/
theorem leads_awaitEcho {start : Timestamp} (h : d.Fits i n) (hs : n.state = .awaitingEcho)
    (hm : ∀ m ∈ heard, d.Hears i m) : d.Leads i n (n.awaitEcho app start heard) := by
  have stays := fun (r : Reaction α) => h.leads_turn (Or.inl hs) (r := r)
  unfold Node.awaitEcho
  split
  · exact stays _ rfl rfl rfl rfl rfl (Nat.le_refl _) rfl (Or.inr (Or.inr rfl)) nofun
  · split
    · exact stays _ rfl rfl rfl rfl rfl (Nat.le_refl _) rfl (Or.inr (Or.inl rfl)) nofun
    · split
      · exact stays _ rfl rfl rfl rfl rfl (Nat.le_refl _) rfl (Or.inl rfl) nofun
      · exact leads_hearAsHolder h hs (hm _ rfl)

theorem leads_repeatPayload {start : Timestamp} (h : d.Fits i n) (hs : n.state = .repeating) :
    d.Leads i n (n.repeatPayload app start) := by
  have stays := fun (r : Reaction α) => h.leads_turn (Or.inr hs) (r := r)
  unfold Node.repeatPayload
  split
  · exact stays _ rfl rfl rfl rfl rfl (Nat.le_refl _) rfl (Or.inr (Or.inr rfl)) nofun
  · refine stays _ rfl rfl rfl rfl rfl (Nat.le_refl _) rfl (Or.inl rfl) fun e he echo hm => ?_
    obtain rfl := Option.some.inj he
    exact absurd hm nofun

/-- **The next token is above both**, so nothing ends the offer of it. -/
theorem Ranks.stands (h : d.Ranks i n.rounds.held) (taker : Address) :
    d.Stands i taker n.rounds.next := by
  have hlt : ∀ j, (d.round j).toNat ≤ n.rounds.held.toNat →
      (d.round j).toNat < n.rounds.next.toNat := fun j hj => Rounds.lt_toNat_next hj (d.few j)
  have hother : (d.round (!i)).toNat ≤ n.rounds.held.toNat := by
    rcases h.other with h' | ⟨h', -⟩ <;> omega
  refine ⟨Or.inl (hlt _ hother), fun _ he => ?_⟩
  have hround : n.rounds.next = d.round i := by
    rcases d.tells i with ⟨body, hf⟩ | ⟨taker', hf⟩
    · have htag := Message.tag_eq_of_encode_eq he
      rcases hf with hf | hf <;> rw [hf] at htag <;> exact absurd htag nofun
    · rw [hf] at he
      exact (Message.encode_turn_inj he).2.2
  exact absurd (hlt i h.own) (by rw [hround]; exact Nat.lt_irrefl _)

theorem Fits.exists_successor (h : d.Fits i n) : ∃ taker, n.table.successor n.own = some taker := by
  refine Membership.exists_successor h.eligible ?_
  rw [h.own]
  exact d.apart i

/-- **Whoever keeps its token offers one that stands.** -/
theorem leads_offerToken {start : Timestamp} (h : d.Fits i n) (hs : n.state = .offering) :
    d.Leads i n (n.offerToken app start) := by
  obtain ⟨taker, htaker⟩ := h.exists_successor
  unfold Node.offerToken
  simp only [h.session, htaker]
  refine h.leads rfl rfl h.session.symm h.deferred rfl trivial (fun e he echo hm => ?_) fun hk => ?_
  · obtain rfl := Option.some.inj he
    exact absurd hm nofun
  · unfold Keeps at hk
    rw [hs] at hk
    obtain ⟨hranks, hoffer⟩ := hk
    have hnone : n.offeredRound? = none := by rw [Node.offeredRound?, hoffer]
    refine ⟨n.rounds.next, ?_, hranks.stands taker⟩
    dsimp only
    rw [hnone]
    rfl

/-! ### While the offer waits -/

/-- **The frame of a token that is not above the offered one does not end the offer.** -/
theorem Hears.judge_eq (hm : d.Hears i m) {taker : Address} {session : Session} {round : UInt32}
    (hoffer : n.offer = some (.turn taker session round))
    (hother : (d.round (!i)).toNat < round.toNat ∨
      (d.round (!i)).toNat = round.toNat ∧ d.Offers (!i)) (hack : m.message.tag ≠ .ack) :
    n.judge taker m = .pending ∨ n.judge taker m = .outdated ∧ d.Offers (!i) := by
  have hoffered := Node.offeredRound_eq hoffer n.rounds.held
  rcases hm.cases with ⟨⟨body, hmes⟩, hnot⟩ | ⟨t, hmes, hframe⟩ | hmes
  · have hlt : d.round (!i) < round := by
      rw [UInt32.lt_iff_toNat_lt]
      exact hother.resolve_right fun h => hnot h.2
    refine Or.inl ?_
    unfold Node.judge
    rcases hmes with hmes | hmes <;> simp only [hmes, hoffered, if_pos hlt]
  · have hnot : ¬round < d.round (!i) := by
      rw [UInt32.lt_iff_toNat_lt]
      rcases hother with h | ⟨h, -⟩ <;> omega
    unfold Node.judge
    simp only [hmes, hoffered, if_neg hnot]
    split
    · exact Or.inl rfl
    · split
      · exact Or.inr ⟨rfl, t, hframe⟩
      · exact Or.inl rfl
  · rw [hmes] at hack
    exact absurd rfl hack

/-- **Nothing ends an offer that stands.** -/
theorem Stands.judge_eq {taker : Address} {round : UInt32} (h : d.Stands i taker round)
    (hm : d.Hears i m) (hoffer : n.offer = some (.turn taker d.session round)) :
    n.judge taker m = .pending ∨ n.judge taker m = .outdated := by
  rcases Decidable.em (m.message.tag = .ack) with hack | hack
  · have hmes : m.message = .ack (d.frame i).encode := by
      rcases hm.cases with ⟨hcarries, -⟩ | ⟨t, hmes, -⟩ | hmes
      · exact absurd hack hcarries.tag_ne_ack
      · rw [hmes] at hack
        exact absurd hack nofun
      · exact hmes
    refine Or.inl ?_
    unfold Node.judge
    simp only [hmes, hoffer, Option.map_some, Option.some.injEq]
    refine if_neg fun ⟨hsender, he⟩ => h.foreign ?_ he
    rw [← hsender, hm.sender]
  · exact (hm.judge_eq hoffer h.other hack).imp id And.left

/-- An offer that stands is not ended by anything that can be heard. -/
theorem leads_hearAsGiver {taker : Address} (h : d.Fits i n) (hs : n.state = .awaitingTaker taker)
    (hm : d.Hears i m) : d.Leads i n (n.hearAsGiver app taker m) := by
  have hmarks := h.readmission_eq_nil hm
  rcases n.hearAsGiver_eq app taker m with ⟨before, emission, hr, -, hsent⟩ |
      ⟨presumed, stats, before, hr, hj⟩
  · rw [hr]
    refine h.leads rfl rfl rfl h.deferred hmarks trivial (fun e he echo hack => ?_) fun hk => ?_
    · obtain ⟨rfl, t, session, round, hmes⟩ := hsent e he
      rw [← hm.raw_eq (by rw [hmes]; nofun)]
      exact (Message.ack.inj hack).symm
    · unfold Keeps at hk ⊢
      rwa [hs] at hk
  · rw [hr]
    refine h.leads rfl rfl rfl (fun _ hm' => Option.some.inj hm' ▸ hm) hmarks trivial nofun ?_
    intro hk
    unfold Keeps at hk
    rw [hs] at hk
    obtain ⟨round, hoffer, hstands⟩ := hk
    rcases hstands.judge_eq hm hoffer with he | he <;> rw [he] at hj <;>
      rcases hj with hj | hj <;> exact absurd hj nofun

theorem leads_awaitTaker {taker : Address} {start : Timestamp} (h : d.Fits i n)
    (hs : n.state = .awaitingTaker taker) (hcalm : n.timers.offerRetry.elapsed start = false)
    (hm : ∀ m ∈ heard, d.Hears i m) : d.Leads i n (n.awaitTaker app taker start heard) := by
  unfold Node.awaitTaker
  rw [hcalm]
  cases heard with
  | none =>
    refine h.leads rfl rfl rfl h.deferred rfl trivial nofun fun hk => ?_
    unfold Keeps at hk ⊢
    rwa [hs] at hk
  | some m => exact leads_hearAsGiver h hs (hm m rfl)

/-- **Whatever the node of a token does, it stays in the ring and loses nothing that it keeps.** -/
theorem leads_react [Application α] {clock : Readings} (h : d.Fits i n)
    (hcalm : n.Calm clock.start) (hm : ∀ m ∈ heard, d.Hears i m)
    (hr : n.react app clock heard = .ok r) : d.Leads i n r := by
  have hplace := h.place
  unfold Place at hplace
  unfold Node.react at hr
  cases hs : n.state <;> simp only [hs] at hplace hr
  all_goals obtain rfl := Except.ok.inj hr
  case listening => exact leads_listen h hs (hcalm.watchdog hs) hm
  case acknowledging => exact leads_acknowledge h hs hm
  case accepting => exact leads_acceptToken h hs
  case speaking => exact leads_speak h hs
  case awaitingEcho => exact leads_awaitEcho h hs hm
  case repeating => exact leads_repeatPayload h hs
  case offering => exact leads_offerToken h hs
  case awaitingTaker => exact leads_awaitTaker h hs (hcalm.offer _ hs) hm

end Rules

/-! ## A newer token that is offered to the other node -/

/-- Token `i` is newer than the other one and is offered to its node. -/
structure Overtakes (i : Bool) : Prop where
  frame : d.frame i = .turn (d.own (!i)) d.session (d.round i)
  newer : (d.round (!i)).toNat < (d.round i).toNat

/-- The node of token `i` waits for the other node to take it. -/
structure Waits (i : Bool) (n : Node) : Prop where
  state : n.state = .awaitingTaker (d.own (!i))
  offer : n.offer = some (d.frame i)

/-- All rounds known are older than that of the other token. -/
structure Behind (i : Bool) (known : Rounds) : Prop where
  held : known.held.toNat < (d.round (!i)).toNat
  seen : known.seen.toNat < (d.round (!i)).toNat

/-- The node of token `i` has not heard yet of the other token, or has it put aside. -/
def Lags (i : Bool) (n : Node) : Prop :=
  match n.state with
  | .awaitingEcho => ¬d.Offers i ∧ n.offer = none
  | .awaitingTaker taker => d.Behind i n.rounds ∧ ∃ round,
      n.offer = some (.turn taker d.session round) ∧ round.toNat < (d.round (!i)).toNat
  | .listening => d.Behind i n.rounds
  | _ => False

section Overtaking

variable {d} {α : Type} {i : Bool} {n : Node} {app : α} {r : Reaction α} {heard : Option Inbound}
  {m : Inbound}

/-- A giver whose offer is not due again looks at what it hears. -/
theorem Waits.react_eq [Application α] {clock : Readings} (hw : d.Waits i n)
    (hcalm : n.Calm clock.start) : n.react app clock heard = .ok (heard.elim
      { node := n, app, transition := .goTo (.awaitingTaker (d.own (!i))) }
      (n.hearAsGiver app (d.own (!i)))) := by
  rw [Node.react, hw.state]
  dsimp only
  unfold Node.awaitTaker
  rw [hcalm.offer _ hw.state]
  cases heard <;> rfl

/-- **A node waits for its taker until that one answers**, and answers nothing but an offer. -/
theorem Waits.react [Application α] {clock : Readings} (hw : d.Waits i n) (ho : d.Overtakes i)
    (hcalm : n.Calm clock.start)
    (hm : ∀ m ∈ heard, d.Hears i m ∧ m.message.tag ≠ .ack)
    (hr : n.react app clock heard = .ok r) :
    d.Waits i { r.node with state := r.transition.next } ∧
      ∀ e ∈ r.emission, ∀ echo, e.message = .ack echo → d.Offers (!i) := by
  obtain rfl := Except.ok.inj ((hw.react_eq hcalm).symm.trans hr)
  cases heard with
  | none => exact ⟨⟨rfl, hw.offer⟩, nofun⟩
  | some m =>
    obtain ⟨hm, hack⟩ := hm m rfl
    have hj := hm.judge_eq (hw.offer.trans (congrArg _ ho.frame)) (Or.inl ho.newer) hack
    rcases n.hearAsGiver_eq app (d.own (!i)) m with ⟨before, emission, hr, hsent, -⟩ |
        ⟨presumed, stats, before, -, hend⟩
    · simp only [Option.elim_some, hr]
      refine ⟨⟨rfl, hw.offer⟩, fun e he _ _ => ?_⟩
      rcases hsent with ⟨-, hnone⟩ | ⟨hout, -⟩
      · rw [hnone] at he
        exact absurd he nofun
      · rcases hj with hj | ⟨-, hoffers⟩
        · exact absurd (hj.symm.trans hout) nofun
        · exact hoffers
    · rcases hj with hj | ⟨hj, -⟩ <;> rw [hj] at hend <;> rcases hend with he | he <;>
        exact absurd he nofun

/-- The frame of a newer token that is offered to this node. -/
theorem Overtakes.message_eq (ho : d.Overtakes (!i)) (hm : d.Hears i m)
    (hack : m.message.tag ≠ .ack) :
    m.message = .turn (d.own i) d.session (d.round (!i)) := by
  have hframe := ho.frame
  rw [Bool.not_not] at hframe
  rcases hm.said with h | h
  · exact h.trans hframe
  · rw [h] at hack
    exact absurd rfl hack

/-- A token of a round that was just taken is not beaten by an offer of that round. -/
theorem Overtakes.ranks (ho : d.Overtakes (!i)) {rounds : Rounds} :
    d.Ranks i (rounds.accept (d.round (!i))).held := by
  have hnewer := ho.newer
  have hframe := ho.frame
  rw [Bool.not_not] at hnewer
  have hle : (d.round (!i)).toNat ≤ (rounds.accept (d.round (!i))).held.toNat := by
    rw [Rounds.toNat_held_accept]
    exact Nat.le_max_right _ _
  refine ⟨?_, by omega⟩
  rcases Nat.lt_or_eq_of_le hle with h | h
  · exact Or.inl h
  · exact Or.inr ⟨h, Or.inl ⟨_, hframe⟩⟩

/-- A holder that is offered a newer token takes it without ending its turn. -/
theorem Overtakes.holder (ho : d.Overtakes (!i)) (h : d.Fits i n) (hoffer : n.offer = none)
    (hm : d.Hears i m) (hack : m.message.tag ≠ .ack) :
    d.Keeps i { (n.hearAsHolder app m).node with
      state := (n.hearAsHolder app m).transition.next } := by
  unfold Node.hearAsHolder
  simp only [ho.message_eq hm hack, h.session, h.own, ne_eq, not_true_eq_false, if_false, if_true]
  exact ⟨ho.ranks, hoffer⟩

/-- A listener that is offered a newer token takes it. -/
theorem Overtakes.listener [Application α] (ho : d.Overtakes (!i)) (h : d.Fits i n)
    (hb : d.Behind i n.rounds) (hm : d.Hears i m) (hack : m.message.tag ≠ .ack) :
    d.Keeps i { (n.hearAsListener app m).node with
      state := (n.hearAsListener app m).transition.next } := by
  have hfresh : n.rounds.isFresh (d.round (!i)) = true :=
    Rounds.isFresh_iff.2 ⟨hb.held, Nat.le_of_lt hb.seen⟩
  unfold Node.hearAsListener Node.hearOffer
  simp only [ho.message_eq hm hack, h.session, h.own, ne_eq, not_true_eq_false, if_false, hfresh,
    if_true]
  exact ho.ranks

/-- **A node never takes the frame of a newer token for an outdated one.** -/
theorem Overtakes.judge_ne_outdated (ho : d.Overtakes (!i)) (h : d.Fits i n) (hm : d.Hears i m)
    (hack : m.message.tag ≠ .ack) {t taker : Address} {s : Session} {round : UInt32}
    (hoffer : n.offer = some (.turn t s round)) (hlt : round.toNat < (d.round (!i)).toNat) :
    n.judge taker m ≠ .outdated := by
  have hoffered := Node.offeredRound_eq hoffer n.rounds.held
  unfold Node.judge
  simp only [ho.message_eq hm hack, h.session, hoffered, UInt32.lt_iff_toNat_lt.2 hlt, ne_eq,
    not_true_eq_false, if_false, if_true]
  split <;> nofun

/-- An acknowledgement does not move a listener. -/
theorem Behind.hears_ack [Application α] (hb : d.Behind i n.rounds) {echo : Bytes}
    (hmes : m.message = .ack echo) :
    d.Lags i { (n.hearAsListener app m).node with
        state := (n.hearAsListener app m).transition.next } ∧
      (n.hearAsListener app m).emission = none := by
  unfold Node.hearAsListener
  simp only [hmes]
  exact ⟨hb, trivial⟩

/-- **A node that lags behind answers nothing until it takes the newer token.** -/
theorem Lags.react [Application α] {clock : Readings} (hl : d.Lags i n) (ho : d.Overtakes (!i))
    (h : d.Fits i n) (hcalm : n.Calm clock.start) (hm : ∀ m ∈ heard, d.Hears i m)
    (hack : ¬d.Offers i → ∀ m ∈ heard, m.message.tag ≠ .ack)
    (hr : n.react app clock heard = .ok r) :
    (d.Lags i { r.node with state := r.transition.next } ∧ r.emission = none) ∨
      d.Keeps i { r.node with state := r.transition.next } := by
  unfold Lags at hl
  unfold Node.react at hr
  cases hs : n.state <;> simp only [hs] at hl hr
  all_goals obtain rfl := Except.ok.inj hr
  case awaitingEcho =>
    obtain ⟨hpayload, hoffer⟩ := hl
    unfold Node.awaitEcho
    rw [hcalm.turn hs, hcalm.retry hs]
    cases heard with
    | none => exact Or.inl ⟨⟨hpayload, hoffer⟩, rfl⟩
    | some m => exact Or.inr (ho.holder h hoffer (hm m rfl) (hack hpayload m rfl))
  case awaitingTaker taker =>
    obtain ⟨hb, round, hoffer, hlt⟩ := hl
    unfold Node.awaitTaker
    rw [hcalm.offer _ hs]
    cases heard with
    | none => exact Or.inl ⟨⟨hb, round, hoffer, hlt⟩, rfl⟩
    | some m =>
      rcases n.hearAsGiver_eq app taker m with ⟨before, emission, hr, hsent, hoffers⟩ |
          ⟨presumed, stats, before, hr, -⟩
      · simp only [Bool.false_eq_true, if_false, hr]
        refine Or.inl ⟨⟨hb, round, hoffer, hlt⟩, ?_⟩
        rcases hsent with ⟨-, hnone⟩ | ⟨hout, hsome⟩
        · exact hnone
        · obtain ⟨-, t, s, q, hmes⟩ := hoffers _ hsome
          have hack : m.message.tag ≠ .ack := by rw [hmes]; nofun
          exact absurd hout (ho.judge_ne_outdated h (hm m rfl) hack hoffer hlt)
      · simp only [Bool.false_eq_true, if_false, hr]
        exact Or.inl ⟨hb, trivial⟩
  case listening =>
    rw [Node.listen_eq app heard (hcalm.watchdog hs)]
    cases hheard : n.deferred.or heard with
    | none => exact Or.inl ⟨hl, rfl⟩
    | some m =>
      have hm := h.hears_of_or hm hheard
      have hawake := h.awake clock.heard
      rcases hm.cases with ⟨hcarries, -⟩ | ⟨taker, hmes, -⟩ | hmes
      · exact Or.inr (ho.listener hawake hl hm hcarries.tag_ne_ack)
      · exact Or.inr (ho.listener hawake hl hm (by rw [hmes]; nofun))
      · have hb : d.Behind i (n.awake clock.heard).rounds := hl
        exact Or.inl (hb.hears_ack hmes)

end Overtaking

end Twins

end RadioRing
