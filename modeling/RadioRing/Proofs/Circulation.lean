import RadioRing.Proofs.Circle

/-!
# Proofs/Circulation — what a node of a working ring can do

Given that every message heard is `Lawful`, **every rule of a node that `Fits` the stage leads to a
node that fits it or the next one, and sends only what is lawful then** (`leads_react`).  Old offers
and lost acknowledgements do no harm, because the taker of an offer has held a token at least as new
ever since.
-/

namespace RadioRing

namespace Circle

/-! ## What each rule leads to -/

variable {c : Circle} {α : Type} {g : Stage} {x : Address} {n : Node} {app : α} {r : Reaction α}
  {heard : Option Inbound} {m : Inbound}

theorem Fits.own_eq (h : c.Fits g x n) (hx : x ∈ c.ring) : n.own = x := by
  rw [Node.own, h.settings, c.own x hx]

/-- Whoever is heard has its place in the table already. -/
theorem Fits.isEligible_sender (h : c.Fits g x n) (hx : x ∈ c.ring) (hm : c.Hears g x m) :
    n.table.isEligible m.sender = true := by
  rw [h.table]
  exact c.eligible x hx _ hm.member

/-- A listener does not have the token. -/
theorem Fits.ne_of_listening (h : c.Fits g x n) (hs : n.state = .listening) :
    x ≠ c.node g.passed := by
  have hplace := h.place
  unfold Place at hplace
  simpa only [hs] using hplace

theorem Fits.readmission_eq_nil (h : c.Fits g x n) (hx : x ∈ c.ring) (hm : c.Hears g x m) :
    n.readmission m = [] :=
  Node.readmission_eq_nil (h.isEligible_sender hx hm)

/-- A frame that was heard and is no offer to be taken can be repeated. -/
theorem Hears.answers (hm : c.Hears g x m)
    (h : ∀ target session round, m.message = .turn target session round →
      round.toNat ≤ c.round g.passed) : c.Answers g m.raw := by
  intro target session round he
  rw [hm.raw] at he
  have htag := Message.tag_eq_of_encode_eq he
  cases hmes : m.message with
  | turn t s r =>
    rw [hmes] at he
    obtain ⟨-, -, rfl⟩ := Message.encode_turn_inj he
    exact h t s r hmes
  | _ => rw [hmes] at htag; exact absurd htag nofun

/-- An offer that was taken can be acknowledged, as often as it comes. -/
theorem Hears.answers_offer (hm : c.Hears g x m) {target : Address} {session : Session}
    {round : UInt32} (hmes : m.message = .turn target session round)
    (hr : round.toNat ≤ c.round g.passed) : c.Answers g m.raw := by
  refine hm.answers fun t s r ht => ?_
  obtain ⟨-, -, rfl⟩ := Message.turn.inj (hmes.symm.trans ht)
  exact hr

/-- A node may take note of any round that has been issued. -/
theorem Knows.observe {known : Rounds} (h : c.Knows g x known) {round : UInt32}
    (hr : round.toNat ≤ c.round g.issued) : c.Knows g x (known.observe round) := by
  refine ⟨h.held, ?_, h.had⟩
  rw [Rounds.toNat_seen_observe]
  exact Nat.max_le.2 ⟨h.seen, hr⟩

/-- A node may take any token that has been passed on. -/
theorem Knows.accept {known : Rounds} (h : c.Knows g x known) {round : UInt32}
    (hr : round.toNat ≤ c.round g.passed) : c.Knows g x (known.accept round) := by
  refine ⟨?_, ?_, fun k hk hx => Nat.le_trans (h.had k hk hx) ?_⟩
  · rw [Rounds.toNat_held_accept]
    exact Nat.max_le.2 ⟨h.held, hr⟩
  · rw [Rounds.toNat_seen_accept]
    exact Nat.max_le.2 ⟨h.seen, Nat.le_trans hr (round_le g.passed_le_issued)⟩
  · rw [Rounds.toNat_held_accept]
    exact Nat.le_max_left _ _

/-- What a node knows once it has taken the token that was offered. -/
theorem Knows.take {known : Rounds} {k : Nat} (h : c.Knows (.offered k) x known) {round : UInt32}
    (hr : round.toNat = c.round (k + 1)) : c.Knows (.ready (k + 1)) x (known.accept round) := by
  refine ⟨?_, ?_, fun j hj _ => ?_⟩
  · rw [Rounds.toNat_held_accept]
    exact Nat.max_le.2 ⟨Nat.le_trans h.held (round_le (Nat.le_succ k)), Nat.le_of_eq hr⟩
  · rw [Rounds.toNat_seen_accept]
    exact Nat.max_le.2 ⟨h.seen, Nat.le_of_eq hr⟩
  · rw [Rounds.toNat_held_accept, hr]
    exact Nat.le_trans (round_le hj) (Nat.le_max_right _ _)

/-- The node whose token it is holds its round. -/
theorem Knows.held_eq {known : Rounds} (h : c.Knows g x known) (hx : x = c.node g.passed) :
    known.held.toNat = c.round g.passed :=
  Nat.le_antisymm h.held (h.had _ (Nat.le_refl _) hx.symm)

/-- A reaction that leaves the node in its ring, with rounds that it can know of, leads to what its
state, its offer and its frame make of it. -/
theorem Fits.leads (h : c.Fits g x n) {g' : Stage} (settings : r.node.settings = n.settings)
    (table : r.node.table = n.table) (session : r.node.session = n.session)
    (rounds : c.Knows g' x r.node.rounds) (deferred : ∀ m ∈ r.node.deferred, c.Hears g' x m)
    (marks : r.transition.marks = [])
    (emission : ∀ e ∈ r.emission, e.message.WellFormed ∧ c.Lawful g' x e.message)
    (place : c.Place g' x { r.node with state := r.transition.next }) : c.Leads g' x r :=
  ⟨⟨settings.trans h.settings, table.trans h.table, session.trans h.session, rounds, deferred,
    place⟩, marks, emission⟩

/-- An acknowledgement of a frame that answers nothing yet to come is lawful. -/
theorem lawful_ack {dest : Address} {echo : Bytes} (h : c.Answers g echo) :
    ∀ e ∈ some (Emission.ack dest echo), e.message.WellFormed ∧ c.Lawful g x e.message := by
  intro e he
  obtain rfl := Option.some.inj he
  exact ⟨Message.wellFormed_ack echo, h⟩

/-! ### Without the token -/

/-- Somebody else's payload or offer is acknowledged, and the stage stays. -/
theorem leads_acknowledge {holder : Address} {echo : Bytes} {start : Timestamp}
    (h : c.Fits g x n) (hs : n.state = .acknowledging holder echo)
    (hm : ∀ m ∈ heard, c.Hears g x m) (hr : r = n.acknowledge app holder echo start heard) :
    ∃ g', c.Advances x n.state r.transition.next g g' ∧ c.Leads g' x r := by
  have hplace := h.place
  unfold Place at hplace
  simp only [hs] at hplace
  unfold Node.acknowledge at hr
  split at hr
  · cases heard with
    | none =>
      subst hr
      exact ⟨g, .stays g (by rw [hs]; nofun) rfl,
        h.leads rfl rfl rfl h.rounds h.deferred rfl nofun hplace⟩
    | some m =>
      obtain ⟨deferred, dropped, hput, hdeferred⟩ := n.fst_putAside m
      dsimp only at hr
      rw [hput] at hr
      subst hr
      refine ⟨g, .stays g (by rw [hs]; nofun) rfl,
        h.leads rfl rfl rfl h.rounds ?_ rfl nofun hplace⟩
      rcases hdeferred with rfl | rfl
      · exact h.deferred
      · exact hm
  · subst hr
    exact ⟨g, .stays g (by rw [hs]; nofun) rfl,
      h.leads rfl rfl rfl h.rounds h.deferred rfl (lawful_ack hplace.2) hplace.1⟩

/-- **An offer to this node is taken exactly if its token has not been handed on yet.** -/
theorem Fits.isFresh_iff (h : c.Fits g x n) (hx : x ∈ c.ring) {k : Nat} {round : UInt32}
    (hk : k < g.issued) (hround : round.toNat = c.round (k + 1))
    (hnext : c.next k = some x) : n.rounds.isFresh round = true ↔ g = .offered k := by
  have hnode := c.eq_node_succ hnext hx
  rw [Rounds.isFresh_iff, hround]
  constructor
  · rintro ⟨hheld, -⟩
    have hnot : ¬k + 1 ≤ g.passed := fun hle =>
      Nat.not_le_of_lt hheld (h.rounds.had (k + 1) hle hnode.symm)
    exact Decidable.byContradiction fun hg => hnot (Stage.succ_le_passed hk hg)
  · rintro rfl
    exact ⟨Nat.lt_of_le_of_lt h.rounds.held (Nat.lt_succ_self _), h.rounds.seen⟩

/-- **An offer is taken only if it is the one open now**, by the node it is for; an old one is
answered, and one for somebody else is noticed. -/
theorem leads_hearOffer {target : Address} {session : Session} {round : UInt32}
    (h : c.Fits g x n) (hx : x ∈ c.ring) (hs : n.state = .listening)
    (hd : n.deferred = none) (hm : c.Hears g x m)
    (hmes : m.message = .turn target session round)
    (hr : r = n.hearOffer app m target session round) :
    ∃ g', c.Advances x n.state r.transition.next g g' ∧ c.Leads g' x r := by
  have hplace := h.ne_of_listening hs
  have hlawful := hm.lawful
  rw [hmes] at hlawful
  obtain ⟨rfl, k, hk, hsender, hround, hnext⟩ := hlawful
  have hdeferred : ∀ g' : Stage, ∀ m ∈ n.deferred, c.Hears g' x m := by
    rw [hd]
    nofun
  have hmarks := h.readmission_eq_nil hx hm
  have hbound : round.toNat ≤ c.round g.issued := hround ▸ round_le hk
  unfold Node.hearOffer at hr
  simp only [h.session, ne_eq, not_true_eq_false, if_false, h.own_eq hx, hmarks] at hr
  by_cases htarget : target = x
  · subst htarget
    simp only [not_true_eq_false, if_false] at hr
    by_cases hfresh : n.rounds.isFresh round = true
    · -- The token comes to this node.
      rw [if_pos hfresh] at hr
      subst hr
      obtain rfl := (h.isFresh_iff hx hk hround hnext).1 hfresh
      have hnode := c.eq_node_succ hnext hx
      have hm' : c.Hears (.ready (k + 1)) target m :=
        Hears.mono (g := .offered k) (Nat.le_succ k) (Nat.le_refl _) hm
      exact ⟨.ready (k + 1), .takes k hnode hnext (by rw [hs]; nofun) rfl,
        h.leads rfl rfl h.session.symm (h.rounds.take hround) (hdeferred _) rfl nofun
          ⟨⟨k + 1, rfl, hnode⟩, hm'.answers_offer hmes (Nat.le_of_eq hround)⟩⟩
    · rw [if_neg hfresh] at hr
      subst hr
      have hother : g ≠ .offered k := fun he =>
        hfresh ((h.isFresh_iff hx hk hround hnext).2 he)
      have htaken : round.toNat ≤ c.round g.passed :=
        hround ▸ round_le (Stage.succ_le_passed hk hother)
      exact ⟨g, .stays g (by rw [hs]; nofun) rfl,
        h.leads rfl rfl rfl h.rounds (hdeferred g) rfl
          (lawful_ack (hm.answers_offer hmes htaken)) hplace⟩
  · simp only [htarget, not_false_eq_true, if_true] at hr
    subst hr
    exact ⟨g, .stays g (by rw [hs]; nofun) rfl,
      h.leads rfl rfl h.session.symm (h.rounds.observe hbound) (hdeferred g) rfl nofun hplace⟩

/-- A listener moves the stage only by taking the open offer. -/
theorem leads_hearAsListener [Application α] (h : c.Fits g x n) (hx : x ∈ c.ring)
    (hs : n.state = .listening) (hd : n.deferred = none) (hm : c.Hears g x m)
    (hr : r = n.hearAsListener app m) :
    ∃ g', c.Advances x n.state r.transition.next g g' ∧ c.Leads g' x r := by
  have hplace := h.ne_of_listening hs
  have stays : ∀ {s' : State}, s'.hasTaken = false → c.Advances x n.state s' g g :=
    fun hs' => .stays g (by rw [hs]; nofun) hs'
  have hmarks := h.readmission_eq_nil hx hm
  have hlawful := hm.lawful
  cases hmes : m.message with
  | data round body | retry round body =>
    have hcarries : m.Carries round :=
      ⟨body, by rw [hmes]; first | exact Or.inl rfl | exact Or.inr rfl⟩
    obtain ⟨delivered, app', events, he⟩ := n.hearAsListener_carries app hcarries
    rw [he] at hr
    subst hr
    refine ⟨g, stays rfl, h.leads rfl rfl rfl h.rounds h.deferred hmarks nofun
      ⟨hplace, hm.answers ?_⟩⟩
    rw [hmes]
    nofun
  | ack echo =>
    unfold Node.hearAsListener at hr
    simp only [hmes, hmarks] at hr
    subst hr
    exact ⟨g, stays rfl, h.leads rfl rfl rfl h.rounds h.deferred rfl nofun hplace⟩
  | turn target session round =>
    unfold Node.hearAsListener at hr
    simp only [hmes] at hr
    exact leads_hearOffer h hx hs hd hm hmes hr
  | joinRequest | joinAck =>
    rw [hmes] at hlawful
    exact hlawful.elim

/-- A listener looks at what it hears or had put aside, and both are lawful. -/
theorem leads_listen [Application α] {clock : Readings} (h : c.Fits g x n) (hx : x ∈ c.ring)
    (hs : n.state = .listening) (hw : n.timers.watchdog.elapsed clock.start = false)
    (hm : ∀ m ∈ heard, c.Hears g x m) (hr : r = n.listen app clock heard) :
    ∃ g', c.Advances x n.state r.transition.next g g' ∧ c.Leads g' x r := by
  have hplace := h.ne_of_listening hs
  rw [Node.listen_eq app heard hw] at hr
  cases hheard : n.deferred.or heard with
  | none =>
    rw [hheard] at hr
    subst hr
    exact ⟨g, .stays g (by rw [hs]; nofun) rfl,
      h.leads rfl rfl rfl h.rounds h.deferred rfl nofun hplace⟩
  | some m =>
    rw [hheard] at hr
    have hm : c.Hears g x m := by
      rcases Option.or_eq_some_iff.1 hheard with hd | ⟨-, hh⟩
      · exact h.deferred m hd
      · exact hm m hh
    have hawake : c.Fits g x (n.awake clock.heard) :=
      ⟨h.settings, h.table, h.session, h.rounds, nofun, h.place⟩
    have hleads := leads_hearAsListener hawake hx hs rfl hm hr
    exact hleads

/-! ### With the token -/

theorem leads_acceptToken {giver : Address} {echo : Bytes} (h : c.Fits g x n)
    (hs : n.state = .accepting giver echo) (hr : r = n.acceptToken app giver echo) :
    ∃ g', c.Advances x n.state r.transition.next g g' ∧ c.Leads g' x r := by
  have hplace := h.place
  unfold Place at hplace
  simp only [hs] at hplace
  subst hr
  exact ⟨g, .stays g (by rw [hs]; nofun) rfl,
    h.leads rfl rfl rfl h.rounds h.deferred rfl (lawful_ack hplace.2) hplace.1⟩

/-- **A turn begins with the token of its round.** -/
theorem leads_speak [Application α] {start : Timestamp} (h : c.Fits g x n)
    (hs : n.state = .speaking) (hr : r = n.speak app start) :
    ∃ g', c.Advances x n.state r.transition.next g g' ∧ c.Leads g' x r := by
  have hplace := h.place
  unfold Place at hplace
  simp only [hs] at hplace
  obtain ⟨k, rfl, hx⟩ := hplace
  subst hr
  rw [hs]
  refine ⟨.held k, .speaks k hx rfl, h.leads rfl rfl rfl
    ⟨h.rounds.held, h.rounds.seen, h.rounds.had⟩ nofun rfl (fun e he => ?_) ⟨⟨k, rfl, hx⟩, rfl⟩⟩
  obtain rfl := Option.some.inj he
  exact ⟨Message.wellFormed_data _ _, k, Nat.le_refl k, hx, h.rounds.held_eq hx⟩

/-- A node that has its turn goes on with it. -/
theorem Fits.leads_held (h : c.Fits g x n) {k : Nat} (hg : g = .held k) (hx : x = c.node k)
    (hs : n.state ≠ .speaking) (hoffer : r.node.offer = none)
    (settings : r.node.settings = n.settings) (table : r.node.table = n.table)
    (session : r.node.session = n.session) (rounds : c.Knows g x r.node.rounds)
    (deferred : r.node.deferred = n.deferred) (marks : r.transition.marks = [])
    (emission : ∀ e ∈ r.emission, e.message.WellFormed ∧ c.Lawful g x e.message)
    (hnext : r.transition.next = .awaitingEcho ∨ r.transition.next = .repeating ∨
      r.transition.next = .offering) :
    ∃ g', c.Advances x n.state r.transition.next g g' ∧ c.Leads g' x r := by
  refine ⟨g, .stays g hs ?_, h.leads settings table session rounds ?_ marks emission ?_⟩
  · rcases hnext with he | he | he <;> rw [he] <;> rfl
  · rw [deferred]
    exact h.deferred
  · unfold Place
    rcases hnext with he | he | he <;> simp only [he] <;> exact ⟨⟨k, hg, hx⟩, hoffer⟩

/-- **The node that has the token hears of none that is better.** -/
theorem Fits.not_outranked (h : c.Fits g x n) (hx : x = c.node g.passed) (hm : c.Hears g x m)
    {round : UInt32} (hround : m.Carries round) : ¬n.outranked round m.sender = true := by
  have hheld := h.rounds.held_eq hx
  obtain ⟨k, hk, hsender, hr⟩ : ∃ k ≤ g.passed, m.sender = c.node k ∧ round.toNat = c.round k := by
    have hlawful := hm.lawful
    obtain ⟨body, hmes | hmes⟩ := hround <;> rwa [hmes] at hlawful
  intro hout
  rcases Node.outranked_iff.1 hout with hlt | ⟨heq, -⟩
  · rw [UInt32.lt_iff_toNat_lt, hheld, hr] at hlt
    exact Nat.not_le_of_lt hlt (round_le hk)
  · -- The token of this round was never anywhere else.
    have hkg : k = g.passed :=
      Nat.add_left_cancel (hr.symm.trans ((congrArg UInt32.toNat heq).trans hheld))
    exact hm.foreign (by rw [hsender, hx, hkg])

/-- Nothing that a holder can hear beats its token. -/
theorem leads_hearAsHolder {k : Nat} (h : c.Fits g x n) (hx : x ∈ c.ring)
    (hs : n.state = .awaitingEcho) (hg : g = .held k) (hk : x = c.node k) (hoffer : n.offer = none)
    (hm : c.Hears g x m) (hr : r = n.hearAsHolder app m) :
    ∃ g', c.Advances x n.state r.transition.next g g' ∧ c.Leads g' x r := by
  have hspeak : n.state ≠ .speaking := by rw [hs]; nofun
  have hmarks := h.readmission_eq_nil hx hm
  have hpassed : g.passed = k := by rw [hg]; rfl
  have hissued : g.issued = k := by rw [hg]; rfl
  have stays : r = { node := n, app, transition := .goTo .awaitingEcho } →
      ∃ g', c.Advances x n.state r.transition.next g g' ∧ c.Leads g' x r := by
    rintro rfl
    exact h.leads_held hg hk hspeak hoffer rfl rfl rfl h.rounds rfl rfl nofun (Or.inl rfl)
  have hlawful := hm.lawful
  cases hmes : m.message with
  | ack echo =>
    unfold Node.hearAsHolder at hr
    simp only [hmes, hmarks] at hr
    split at hr
    · exact stays hr
    · split at hr
      · subst hr
        exact h.leads_held hg hk hspeak hoffer rfl rfl rfl h.rounds rfl rfl nofun
          (Or.inr (Or.inr rfl))
      · split at hr
        · subst hr
          exact h.leads_held hg hk hspeak hoffer rfl rfl rfl h.rounds rfl rfl nofun
            (Or.inr (Or.inl rfl))
        · exact stays hr
  | turn target session round =>
    unfold Node.hearAsHolder at hr
    simp only [hmes, hmarks] at hr hlawful
    obtain ⟨rfl, j, hj, hsender, hround, -⟩ := hlawful
    have hbound : round.toNat ≤ c.round g.passed := by
      rw [hround, hpassed]
      exact round_le (hissued ▸ hj)
    split at hr
    · exact stays hr
    · split at hr
      · subst hr
        exact h.leads_held hg hk hspeak hoffer rfl rfl rfl (h.rounds.accept hbound) rfl rfl
          (lawful_ack (hm.answers_offer hmes hbound)) (Or.inl rfl)
      · split at hr
        · rename_i hlt
          rw [UInt32.lt_iff_toNat_lt, h.rounds.held_eq (hpassed.symm ▸ hk)] at hlt
          exact absurd hbound (Nat.not_le_of_lt hlt)
        · exact stays hr
  | data round body | retry round body =>
    have hcarries : m.Carries round :=
      ⟨body, by rw [hmes]; first | exact Or.inl rfl | exact Or.inr rfl⟩
    rw [Node.hearAsHolder_carries app hcarries (h.isEligible_sender hx hm),
      if_neg (h.not_outranked (hpassed.symm ▸ hk) hm hcarries)] at hr
    exact stays hr
  | joinRequest | joinAck =>
    rw [hmes] at hlawful
    exact hlawful.elim

/-- A turn ends by an echo or by the clock, and the token stays with its node. -/
theorem leads_awaitEcho {start : Timestamp} (h : c.Fits g x n) (hx : x ∈ c.ring)
    (hs : n.state = .awaitingEcho) (hm : ∀ m ∈ heard, c.Hears g x m)
    (hr : r = n.awaitEcho app start heard) :
    ∃ g', c.Advances x n.state r.transition.next g g' ∧ c.Leads g' x r := by
  have hplace := h.place
  unfold Place at hplace
  simp only [hs] at hplace
  obtain ⟨⟨k, hg, hk⟩, hoffer⟩ := hplace
  have hspeak : n.state ≠ .speaking := by rw [hs]; nofun
  unfold Node.awaitEcho at hr
  split at hr
  · subst hr
    exact h.leads_held hg hk hspeak hoffer rfl rfl rfl h.rounds rfl rfl nofun (Or.inr (Or.inr rfl))
  · split at hr
    · subst hr
      exact h.leads_held hg hk hspeak hoffer rfl rfl rfl h.rounds rfl rfl nofun
        (Or.inr (Or.inl rfl))
    · split at hr
      · subst hr
        exact h.leads_held hg hk hspeak hoffer rfl rfl rfl h.rounds rfl rfl nofun (Or.inl rfl)
      · exact leads_hearAsHolder h hx hs hg hk hoffer (hm _ rfl) hr

theorem leads_repeatPayload {start : Timestamp} (h : c.Fits g x n) (hs : n.state = .repeating)
    (hr : r = n.repeatPayload app start) :
    ∃ g', c.Advances x n.state r.transition.next g g' ∧ c.Leads g' x r := by
  have hplace := h.place
  unfold Place at hplace
  simp only [hs] at hplace
  obtain ⟨⟨k, rfl, hk⟩, hoffer⟩ := hplace
  have hspeak : n.state ≠ .speaking := by rw [hs]; nofun
  unfold Node.repeatPayload at hr
  split at hr
  · subst hr
    exact h.leads_held rfl hk hspeak hoffer rfl rfl rfl h.rounds rfl rfl nofun (Or.inr (Or.inr rfl))
  · subst hr
    refine h.leads_held rfl hk hspeak hoffer rfl rfl rfl h.rounds rfl rfl (fun e he => ?_)
      (Or.inl rfl)
    obtain rfl := Option.some.inj he
    exact ⟨Message.wellFormed_retry _ _, k, Nat.le_refl k, hk, h.rounds.held_eq hk⟩

theorem ne_everyone_of_next {k : Nat} {taker : Address} (h : c.next k = some taker) :
    taker ≠ .everyone := by
  obtain ⟨he, -⟩ := Membership.successor_eq_some_iff.1 h
  exact Settings.ne_everyone_of_check (c.accepted _ (c.node_mem k))
    (c.roster _ (c.node_mem k) taker (Membership.contains_of_isEligible he))

/-- An offer that has been made is lawful. -/
theorem lawful_offer {k : Nat} {taker : Address} {round : UInt32} (hx : x = c.node k)
    (hk : k < g.issued) (hround : round.toNat = c.round (k + 1)) (hnext : c.next k = some taker) :
    (Message.turn taker c.session round).WellFormed ∧
      c.Lawful g x (.turn taker c.session round) :=
  ⟨Message.wellFormed_turn (ne_everyone_of_next hnext) c.named, rfl, k, hk, hx, hround, hnext⟩

/-- **The token is offered with the next round.** -/
theorem leads_offerToken {start : Timestamp} (h : c.Fits g x n) (hx : x ∈ c.ring)
    (hs : n.state = .offering) (few : c.round g.passed < lastRound)
    (hr : r = n.offerToken app start) :
    ∃ g', c.Advances x n.state r.transition.next g g' ∧ c.Leads g' x r := by
  have hspeak : n.state ≠ .speaking := by rw [hs]; nofun
  have hplace := h.place
  unfold Place at hplace
  simp only [hs] at hplace
  obtain ⟨⟨k, rfl, hk⟩, hoffer⟩ := hplace
  obtain ⟨taker, hnext⟩ := c.exists_next k
  have hsuccessor : n.table.successor n.own = some taker := by
    rw [h.own_eq hx, h.table, hk]
    exact hnext
  have hround : n.rounds.next.toNat = c.round (k + 1) := by
    have htop : n.rounds.top = c.round k := by
      rw [Rounds.top, h.rounds.held_eq hk]
      exact Nat.max_eq_left h.rounds.seen
    rw [Rounds.toNat_next (htop.symm ▸ few), htop]
    rfl
  have hnone : n.offeredRound? = none := by rw [Node.offeredRound?, hoffer]
  unfold Node.offerToken at hr
  simp only [h.session, hsuccessor, hnone, Option.getD_none] at hr
  subst hr
  refine ⟨.offered k, .offers k hk hspeak rfl,
    h.leads rfl rfl h.session.symm ⟨h.rounds.held, ?_, h.rounds.had⟩
      (fun m hm => Hears.mono (g := .held k) (Nat.le_refl k) (Nat.le_succ k) (h.deferred m hm)) rfl
      (fun e he => ?_) ⟨k, _, hk, hnext, hround, rfl, Or.inl rfl⟩⟩
  · rw [Rounds.toNat_seen_observe]
    exact Nat.max_le.2 ⟨Nat.le_trans h.rounds.seen (round_le (Nat.le_succ k)), Nat.le_of_eq hround⟩
  · obtain rfl := Option.some.inj he
    exact lawful_offer hk (Nat.lt_succ_self k) hround hnext

/-- **Nothing ends an offer whose token has not been taken.** -/
theorem judge_of_offered {k : Nat} {taker : Address} {round : UInt32} (hm : c.Hears g x m)
    (hoffer : n.offer = some (.turn taker c.session round)) (hround : round.toNat = c.round (k + 1))
    (hg : g = .offered k) : n.judge taker m = .pending ∨ n.judge taker m = .outdated := by
  subst hg
  have hoffered := Node.offeredRound_eq hoffer n.rounds.held
  have hlawful := hm.lawful
  unfold Node.judge
  simp only [hoffered]
  cases hmes : m.message with
  | ack echo =>
    rw [hmes] at hlawful
    refine Or.inl (if_neg ?_)
    rintro ⟨-, hecho⟩
    rw [hoffer] at hecho
    have hle := hlawful taker c.session round (Option.some.inj hecho).symm
    rw [hround] at hle
    exact Nat.not_succ_le_self _ (le_of_round_le hle)
  | data round' body | retry round' body =>
    rw [hmes] at hlawful
    obtain ⟨j, hj, -, hround'⟩ := hlawful
    refine Or.inl (if_pos ?_)
    rw [UInt32.lt_iff_toNat_lt, hround, hround']
    exact Nat.add_lt_add_left (Nat.lt_succ_of_le hj) _
  | turn target session round' =>
    rw [hmes] at hlawful
    obtain ⟨-, j, hj, -, hround', -⟩ := hlawful
    have hnot : ¬round < round' := by
      rw [UInt32.lt_iff_toNat_lt, hround, hround']
      exact Nat.not_lt_of_le (round_le hj)
    dsimp only
    rw [if_neg hnot]
    split
    · exact Or.inl rfl
    · split
      · exact Or.inr rfl
      · exact Or.inl rfl
  | joinRequest | joinAck => exact Or.inl rfl

/-- An offer is outdated only if it is not above the one that waits. -/
theorem le_of_judge_outdated {taker t : Address} {session s : Session} {round r : UInt32}
    (hoffer : n.offer = some (.turn taker session round)) (hmes : m.message = .turn t s r)
    (h : n.judge taker m = .outdated) : r ≤ round := by
  have hoffered := Node.offeredRound_eq hoffer n.rounds.held
  unfold Node.judge at h
  simp only [hoffered, hmes] at h
  split at h
  · exact absurd h nofun
  · split at h
    · split at h <;> exact absurd h nofun
    · rename_i hlt
      exact UInt32.not_lt.1 hlt

/-- **An offer that counts as outdated has been taken**, so it can be acknowledged. -/
theorem answers_of_outdated {k : Nat} {taker : Address} {round : UInt32} (hm : c.Hears g x m)
    (hk : x = c.node k) (hround : round.toNat = c.round (k + 1))
    (hoffer : n.offer = some (.turn taker c.session round))
    (hg : g = .offered k ∨ k < g.passed) (hj : n.judge taker m = .outdated) :
    c.Answers g m.raw := by
  refine hm.answers fun t s r ht => ?_
  have hle := le_of_judge_outdated hoffer ht hj
  have hlawful := hm.lawful
  rw [ht] at hlawful
  obtain ⟨-, j, hjg, hsender, hr, -⟩ := hlawful
  have hne : g ≠ .offered j := by
    rintro rfl
    rcases hg with he | hlt
    · exact hm.foreign (by rw [hsender, hk, Stage.offered.inj he])
    · rw [UInt32.le_iff_toNat_le, hr, hround] at hle
      exact Nat.not_le_of_lt hlt (Nat.le_of_succ_le_succ (le_of_round_le hle))
  exact hr ▸ round_le (Stage.succ_le_passed hjg hne)

/-- **Nothing that a giver can hear ends an offer that is still open**, so it lets go only of a
token that has been taken. -/
theorem leads_hearAsGiver {k : Nat} {taker : Address} {round : UInt32} (h : c.Fits g x n)
    (hx : x ∈ c.ring) (hs : n.state = .awaitingTaker taker) (hk : x = c.node k)
    (hnext : c.next k = some taker) (hround : round.toNat = c.round (k + 1))
    (hoffer : n.offer = some (.turn taker c.session round))
    (hg : g = .offered k ∨ k < g.passed ∧ x ≠ c.node g.passed) (hm : c.Hears g x m)
    (hr : r = n.hearAsGiver app taker m) :
    ∃ g', c.Advances x n.state r.transition.next g g' ∧ c.Leads g' x r := by
  have hspeak : n.state ≠ .speaking := by rw [hs]; nofun
  have hmarks := h.readmission_eq_nil hx hm
  rcases n.hearAsGiver_eq app taker m with ⟨before, emission, he, hsent, -⟩ |
      ⟨presumed, stats, before, he, hj⟩
  · rw [he] at hr
    subst hr
    refine ⟨g, .stays g hspeak rfl, h.leads rfl rfl rfl h.rounds h.deferred hmarks ?_
      ⟨k, round, hk, hnext, hround, hoffer, hg⟩⟩
    rcases hsent with ⟨-, rfl⟩ | ⟨hj, rfl⟩
    · nofun
    · exact lawful_ack (answers_of_outdated hm hk hround hoffer (hg.imp id And.left) hj)
  · have hother : x ≠ c.node g.passed := by
      refine (hg.resolve_left fun hoffered => ?_).2
      rcases judge_of_offered hm hoffer hround hoffered with hp | hp <;> rw [hp] at hj <;>
        rcases hj with hj | hj <;> exact absurd hj nofun
    rw [he] at hr
    subst hr
    refine ⟨g, .stays g hspeak rfl, h.leads rfl rfl rfl h.rounds ?_ hmarks nofun hother⟩
    exact fun m' hm' => Option.some.inj hm' ▸ hm

theorem leads_awaitTaker {taker : Address} {start : Timestamp} (h : c.Fits g x n)
    (hx : x ∈ c.ring) (hs : n.state = .awaitingTaker taker)
    (hpatient : n.timers.offerRetry.elapsed start = true →
      n.offerRetries < n.settings.offerRetryLimit.toNat)
    (hm : ∀ m ∈ heard, c.Hears g x m) (hr : r = n.awaitTaker app taker start heard) :
    ∃ g', c.Advances x n.state r.transition.next g g' ∧ c.Leads g' x r := by
  have hplace := h.place
  unfold Place at hplace
  simp only [hs] at hplace
  obtain ⟨k, round, hk, hnext, hround, hoffer, hg⟩ := hplace
  have hspeak : n.state ≠ .speaking := by rw [hs]; nofun
  have hissued : k < g.issued := by
    rcases hg with rfl | ⟨hlt, -⟩
    · exact Nat.lt_succ_self k
    · exact Nat.lt_of_lt_of_le hlt g.passed_le_issued
  unfold Node.awaitTaker at hr
  split at hr
  · rename_i helapsed
    rw [if_neg (Nat.not_le_of_lt (hpatient helapsed))] at hr
    subst hr
    refine ⟨g, .stays g hspeak rfl, h.leads rfl rfl rfl h.rounds h.deferred rfl (fun e he => ?_)
      ⟨k, round, hk, hnext, hround, hoffer, hg⟩⟩
    dsimp only at he
    rw [hoffer] at he
    obtain rfl := Option.some.inj he
    exact lawful_offer hk hissued hround hnext
  · split at hr
    · subst hr
      exact ⟨g, .stays g hspeak rfl, h.leads rfl rfl rfl h.rounds h.deferred rfl nofun
        ⟨k, round, hk, hnext, hround, hoffer, hg⟩⟩
    · exact leads_hearAsGiver h hx hs hk hnext hround hoffer hg (hm _ rfl) hr

/-- **Whatever a node of the ring does leads to a node that fits**, the same stage or the next. -/
theorem leads_react [Application α] {clock : Readings} (h : c.Fits g x n) (hx : x ∈ c.ring)
    (hw : n.state = .listening → n.timers.watchdog.elapsed clock.start = false)
    (hpatient : ∀ taker, n.state = .awaitingTaker taker →
      n.timers.offerRetry.elapsed clock.start = true →
        n.offerRetries < n.settings.offerRetryLimit.toNat)
    (few : c.round g.passed < lastRound) (hm : ∀ m ∈ heard, c.Hears g x m)
    (hr : n.react app clock heard = .ok r) :
    ∃ g', c.Advances x n.state r.transition.next g g' ∧ c.Leads g' x r := by
  have hplace := h.place
  unfold Place at hplace
  unfold Node.react at hr
  cases hs : n.state <;> simp only [hs] at hplace hr
  all_goals have hr := (Except.ok.inj hr).symm
  all_goals rw [← hs]
  case listening => exact leads_listen h hx hs (hw hs) hm hr
  case acknowledging => exact leads_acknowledge h hs hm hr
  case accepting => exact leads_acceptToken h hs hr
  case speaking => exact leads_speak h hs hr
  case awaitingEcho => exact leads_awaitEcho h hx hs hm hr
  case repeating => exact leads_repeatPayload h hs hr
  case offering => exact leads_offerToken h hx hs few hr
  case awaitingTaker => exact leads_awaitTaker h hx hs (hpatient _ hs) hm hr

end Circle

end RadioRing
