import RadioRing.Proofs.Meeting

/-!
# Proofs/Merge — when two tokens meet

Two nodes that both have a token hear the frame that tells of the other one, and the
acknowledgements that follow, in any order and before any of their deadlines.  **One token is left,
unless the nodes offer tokens of the same round to each other** (`token_remains_iff`): then each can
take the other's offer for an outdated one, acknowledge it, and let go of its own.
-/

namespace RadioRing

namespace Twins

open Meeting

variable {α : Type} [Application α] {d : Twins} {reports i : Bool} {w : Meeting α}

/-! ## How it begins -/

/-- The node of token `i` waits for an echo of its payload. -/
structure Holds (d : Twins) (i : Bool) (n : Node) : Prop where
  state : n.state = .awaitingEcho
  offer : n.offer = none
  held : n.rounds.held = d.round i
  payload : ¬d.Offers i

/-- The node of token `i` waits for `taker`. -/
structure Gives (d : Twins) (i : Bool) (n : Node) (taker : Address) : Prop where
  state : n.state = .awaitingTaker taker
  offer : n.offer = some (d.frame i)
  frame : d.frame i = .turn taker d.session (d.round i)
  held : n.rounds.held.toNat < (d.round i).toNat
  seen : n.rounds.seen = d.round i

section Start

variable {n : Node} {taker : Address}

omit [Application α]

theorem Holds.keeps (h : d.Holds i n)
    (hother : (d.round (!i)).toNat < (d.round i).toNat ∨ (d.round (!i)).toNat = (d.round i).toNat ∧
      (d.Offers (!i) ∨ d.own i < d.own (!i))) : d.Keeps i n := by
  unfold Keeps
  rw [h.state]
  refine ⟨⟨?_, Nat.le_of_eq (congrArg UInt32.toNat h.held.symm)⟩, h.offer⟩
  rwa [h.held]

theorem Gives.keeps (h : d.Gives i n taker) (htaker : taker ≠ d.own (!i))
    (hother : (d.round (!i)).toNat < (d.round i).toNat ∨
      (d.round (!i)).toNat = (d.round i).toNat ∧ d.Offers (!i)) : d.Keeps i n := by
  unfold Keeps
  rw [h.state]
  exact ⟨d.round i, h.offer.trans (congrArg some h.frame), hother, fun he => absurd he htaker⟩

theorem Holds.lags (h : d.Holds i n) : d.Lags i n := by
  unfold Lags
  rw [h.state]
  exact ⟨h.payload, h.offer⟩

theorem Gives.lags (h : d.Gives i n taker) (hnewer : (d.round i).toNat < (d.round (!i)).toNat) :
    d.Lags i n := by
  unfold Lags
  rw [h.state]
  refine ⟨⟨Nat.lt_trans h.held hnewer, ?_⟩, d.round i, ?_, hnewer⟩
  · rw [h.seen]
    exact hnewer
  · rw [h.offer, h.frame]

theorem Gives.offers (h : d.Gives i n taker) : d.Offers i := ⟨taker, h.frame⟩

/-- Of two holders the better one keeps its token. -/
theorem safe_of_holds (hholds : ∀ i, d.Holds i (w.station i).node) :
    d.Safe reports w := by
  rcases Nat.lt_trichotomy (d.round false).toNat (d.round true).toNat with hlt | heq | hgt
  · exact Or.inl ⟨true, (hholds true).keeps (Or.inl hlt)⟩
  · rcases Nat.lt_or_gt_of_ne (Address.toNat_ne (d.apart true)) with hown | hown
    · exact Or.inl ⟨false, (hholds false).keeps (Or.inr ⟨heq.symm, Or.inr (Address.lt_iff.2 hown)⟩)⟩
    · exact Or.inl ⟨true, (hholds true).keeps (Or.inr ⟨heq, Or.inr (Address.lt_iff.2 hown)⟩)⟩
  · exact Or.inl ⟨false, (hholds false).keeps (Or.inl hgt)⟩

end Start

/-- The tokens of a meeting that begins. -/
structure Starts (d : Twins) (reports : Bool) (w : Meeting α) : Prop where
  invariant : d.Invariant reports w
  waiting : ∀ i, d.Holds i (w.station i).node ∨ ∃ taker, d.Gives i (w.station i).node taker
  own : ∀ i, d.own i = w.own i
  session : ∀ i, (w.station i).node.session = some d.session
  said : ∀ i, w.unheard i = [d.shown reports i]
  wellFormed : ∀ i, (d.frame i).WellFormed

/-- An offer that overtakes the other token is pending. -/
theorem Starts.pending (h : d.Starts reports w) (ho : d.Overtakes i)
    (hw : d.Waits i (w.station i).node) (hl : d.Lags (!i) (w.station (!i)).node) :
    d.Pending reports w i := by
  have hnone : ∀ j, ∀ t ∈ w.unheard j, ¬t.acknowledges reports = true := by
    intro j t ht hack
    rw [h.said j] at ht
    obtain rfl := List.mem_singleton.1 ht
    have htag : (d.frame j).tag = .ack := Transmission.acknowledges_ofEmission.1 hack
    rcases d.tells j with ⟨body, hf | hf⟩ | ⟨t, hf⟩ <;> rw [hf] at htag <;> exact absurd htag nofun
  exact ⟨ho, hw, hl, hnone _, fun _ => hnone _⟩

/-- A newer token that is offered is safe, whomever it is offered to. -/
theorem Starts.safe_of_newer (h : d.Starts reports w) {taker : Address}
    (hi : d.Gives i (w.station i).node taker) (hnewer : (d.round (!i)).toNat < (d.round i).toNat) :
    d.Safe reports w := by
  by_cases htaker : taker = d.own (!i)
  · refine Or.inr ⟨i, h.pending ⟨?_, hnewer⟩ ⟨?_, hi.offer⟩ ?_⟩
    · rw [hi.frame, htaker]
    · rw [hi.state, htaker]
    · rcases h.waiting (!i) with hh | ⟨taker', hg⟩
      · exact hh.lags
      · refine hg.lags ?_
        rwa [Bool.not_not]
  · exact Or.inl ⟨i, hi.keeps htaker (Or.inl hnewer)⟩

/-- A holder takes the token that is offered if it is newer, and keeps its own if it is not. -/
theorem Starts.safe_of_holder (h : d.Starts reports w) {taker : Address}
    (hholds : d.Holds i (w.station i).node) (hgives : d.Gives (!i) (w.station (!i)).node taker) :
    d.Safe reports w := by
  rcases Nat.lt_trichotomy (d.round (!i)).toNat (d.round i).toNat with hlt | heq | hgt
  · exact Or.inl ⟨i, hholds.keeps (Or.inl hlt)⟩
  · exact Or.inl ⟨i, hholds.keeps (Or.inr ⟨heq, Or.inl hgives.offers⟩)⟩
  · exact h.safe_of_newer hgives (by rwa [Bool.not_not])

/-- Of two offers one is safe if it is newer than the other, or made to a third node. -/
theorem Starts.safe_of_offers (h : d.Starts reports w) (hmutual : ¬w.Mutual)
    {taker : Bool → Address} (hgives : ∀ i, d.Gives i (w.station i).node (taker i)) : d.Safe reports w := by
  rcases Nat.lt_trichotomy (d.round false).toNat (d.round true).toNat with hlt | heq | hgt
  · exact h.safe_of_newer (hgives true) hlt
  · by_cases htaker : ∀ i, taker i = d.own (!i)
    · refine absurd ⟨d.session, d.round true, fun i => ?_⟩ hmutual
      have hround : d.round i = d.round true := by
        cases i with
        | true => rfl
        | false => exact UInt32.toNat_inj.1 heq
      rw [← h.own, (hgives i).state, (hgives i).offer, (hgives i).frame, htaker, hround]
      exact ⟨rfl, rfl⟩
    · obtain ⟨i, hi⟩ := Classical.not_forall.1 htaker
      have heq : (d.round (!i)).toNat = (d.round i).toNat := by
        cases i with
        | true => exact heq
        | false => exact heq.symm
      exact Or.inl ⟨i, (hgives i).keeps hi (Or.inr ⟨heq, (hgives (!i)).offers⟩)⟩
  · exact h.safe_of_newer (hgives false) hgt

/-- **One token is safe unless both are offered to each other with the same round.** -/
theorem Starts.safe (h : d.Starts reports w) (hmutual : ¬w.Mutual) : d.Safe reports w := by
  by_cases hholder : ∃ i, d.Holds i (w.station i).node
  · obtain ⟨i, hi⟩ := hholder
    rcases h.waiting (!i) with hother | ⟨taker, hother⟩
    · refine safe_of_holds fun j => ?_
      rcases eq_or_eq_not j i with rfl | rfl
      · exact hi
      · exact hother
    · exact h.safe_of_holder hi hother
  · have hgives : ∀ i, ∃ taker, d.Gives i (w.station i).node taker := fun i =>
      (h.waiting i).resolve_left fun hi => hholder ⟨i, hi⟩
    obtain ⟨taker, hgives⟩ := Classical.axiomOfChoice hgives
    exact h.safe_of_offers hmutual hgives

end Twins

/-! ## Every meeting -/

/-- A node that waits has a payload of its token, or an offer of it. -/
theorem Node.Tells.holds_or_gives {n : Node} {m : Message} {session : Session} (h : n.Tells m)
    (hs : n.Sound) (hsession : n.session = some session)
    (hseen : n.rounds.seen.toNat < lastRound) :
    (n.state = .awaitingEcho ∧ n.offer = none ∧ n.rounds.held = n.tokenRound ∧
      ∃ body, m = .data n.tokenRound body ∨ m = .retry n.tokenRound body) ∨
    ∃ taker, n.state = .awaitingTaker taker ∧ n.offer = some m ∧
      m = .turn taker session n.tokenRound ∧ n.rounds.held.toNat < n.tokenRound.toNat ∧
        n.rounds.seen = n.tokenRound ∧ taker ∈ n.settings.roster := by
  have hoffer := hs.offer
  unfold Tells at h
  unfold tokenRound
  cases hst : n.state <;> rw [hst] at h hoffer <;> dsimp only at h ⊢
  case awaitingEcho => exact Or.inl ⟨rfl, hoffer, rfl, _, h⟩
  case awaitingTaker taker =>
    obtain ⟨hminted, hmem, session', hsession', hoffer⟩ := hoffer
    obtain rfl := Option.some.inj (hsession'.symm.trans hsession)
    have hlt : n.rounds.held.toNat < n.rounds.seen.toNat :=
      hminted.resolve_right (Nat.ne_of_lt hseen)
    exact Or.inr ⟨taker, rfl, h, Option.some.inj (h.symm.trans hoffer), hlt, rfl, hmem⟩

/-- What a node tells of its token fits in a frame. -/
theorem Node.Tells.wellFormed {n : Node} {m : Message} {session : Session} (h : n.Tells m)
    (hs : n.Sound) (hsession : n.session = some session)
    (hseen : n.rounds.seen.toNat < lastRound) : m.WellFormed := by
  rcases h.holds_or_gives hs hsession hseen with ⟨-, -, -, body, hm | hm⟩ |
      ⟨taker, -, -, hm, -, -, hmem⟩ <;> rw [hm]
  · exact Message.wellFormed_data _ _
  · exact Message.wellFormed_retry _ _
  · exact Message.wellFormed_turn (Settings.ne_everyone_of_check hs.accepted hmem)
      (hs.network _ hsession)

namespace Meeting

variable {α : Type} [Application α] {reports : Bool} {session : Session} {w w' : Meeting α}

/-- **A meeting begins with two tokens**, each at its node. -/
theorem Begins.exists_starts (h : w.Begins reports session) :
    ∃ d : Twins, d.Starts reports w := by
  have hsound : ∀ i, (w.station i).node.Sound := fun i =>
    Station.sound_of_reachable (h.reachable i)
  -- Each node has said some frame of its token; one is chosen for each.
  obtain ⟨frame, hframe⟩ := Classical.axiomOfChoice h.said
  have hwaits := fun i =>
    (hframe i).1.holds_or_gives (hsound i) (h.session i) (h.seen i)
  let d : Twins := {
    own := w.own
    apart := h.apart
    session := session
    round := fun i => (w.station i).node.tokenRound
    few := fun i => by
      rcases hwaits i with ⟨-, -, hround, -⟩ | ⟨taker, -, -, -, -, hround, -⟩ <;> rw [← hround]
      · exact h.held i
      · exact h.seen i
    frame := frame
    tells := fun i => (hwaits i).imp (fun hi => hi.2.2.2) fun ⟨taker, hi⟩ => ⟨taker, hi.2.2.1⟩ }
  have hwaiting : ∀ i, d.Holds i (w.station i).node ∨
      ∃ taker, d.Gives i (w.station i).node taker := by
    intro i
    rcases hwaits i with ⟨hs, ho, hround, body, hm⟩ | ⟨taker, hs, ho, hm, hheld, hround, -⟩
    · refine Or.inl ⟨hs, ho, hround, fun ⟨taker, ht⟩ => ?_⟩
      rcases hm with hm | hm <;> exact absurd (hm.symm.trans ht) nofun
    · exact Or.inr ⟨taker, hs, ho, hm, hheld, hround⟩
  have hstate : ∀ i, (w.station i).node.state.isMaster = true ∧
      d.Place i (w.station i).node.state := by
    intro i
    rcases hwaiting i with hi | ⟨taker, hi⟩ <;> rw [hi.state] <;> exact ⟨rfl, trivial⟩
  have hwf : ∀ i, (frame i).WellFormed := fun i =>
    (hframe i).1.wellFormed (hsound i) (h.session i) (h.seen i)
  refine ⟨d, ⟨h.reachable, fun i => ⟨rfl, h.session i, h.eligible i, ?_, (hstate i).2⟩, ?_⟩,
    hwaiting, fun _ => rfl, h.session, fun i => (hframe i).2, hwf⟩
  · rw [(hsound i).attentive (hstate i).1]
    nofun
  · intro i t ht
    rw [(hframe i).2] at ht
    exact ⟨.toAll (frame i), List.mem_singleton.1 ht, hwf i, Or.inl rfl⟩

end Meeting

namespace Twins

open Meeting

variable {α : Type} [Application α] {d : Twins} {reports i : Bool} {w : Meeting α}

/-! ## Two offers that end each other -/

/-- The acknowledgement of the other token's frame by the node of token `i`. -/
def answer (d : Twins) (reports i : Bool) : Transmission :=
  .ofEmission reports (d.own i) (.ack (d.own (!i)) (d.frame (!i)).encode)

/-- **A station that listens hears what was said to it.** -/
theorem Invariant.hear_eq (h : d.Invariant reports w) {now : Timestamp} {e : Emission}
    (hp : w.Permits i (some (.ofEmission reports (d.own (!i)) e)) (.still now))
    (hwf : e.message.WellFormed) (hdest : e.dest = d.own i ∨ e.dest.isEveryone = true) :
    ((w.station i).hear (slot reports (some (.ofEmission reports (d.own (!i)) e))) now).1 =
      some ⟨d.own (!i), e.dest, e.message, e.message.encode⟩ := by
  have hfits := h.fits i
  have hsound := Station.sound_of_reachable (h.reachable i)
  have hattends : (w.station i).node.patience now ≠ none := hp.attends _ rfl
  rw [Station.hear_slot hattends]
  refine Link.fst_read_eq_some_iff.2 ⟨?_, rfl, ?_⟩
  · cases reports <;> rfl
  · refine ⟨?_, hsound.roster _ (Membership.contains_of_isEligible hfits.eligible), ?_,
      Message.decode_encode hwf⟩
    · exact fun he => d.apart i (he.trans hfits.own)
    · exact hdest.imp (fun he => he.trans hfits.own.symm) id

/-- A step in which a station hears a message: it reacts to it, the message is not heard again, and
of what the station says an acknowledgement goes on. -/
structure Heard (w : Meeting α) (reports i : Bool) (t : Transmission) (r : Reaction α)
    (w' : Meeting α) : Prop where
  node : ∃ timers random evictions admissions taken, (w'.station i).node = { r.node with
      state := r.transition.next
      table := r.node.table.markAll r.transition.marks
      stats := { r.booked taken with evictions, admissions }
      timers, random } ∧ (r.transition.next = r.node.state → timers = r.node.timers)
  other : w'.station (!i) = w.station (!i)
  heard : w'.unheard (!i) = (w.unheard (!i)).erase t
  silent : r.emission = none → w'.unheard i = w.unheard i
  answered : ∀ e, r.emission = some e → e.message.tag = .ack →
    (e.message.framed reports (w.own i)).length ≤ 251 →
      w'.unheard i = w.unheard i ++ [.ofEmission reports (w.own i) e]

/-- **What a station does that hears a message**: it reacts to just that. -/
theorem Invariant.exists_heard (h : d.Invariant reports w) {now : Timestamp}
    {t : Transmission} {m : Inbound}
    (hm : ((w.station i).hear (slot reports (some t)) now).1 = some m) {r : Reaction α}
    (hr : (w.station i).node.react (w.station i).app (.still now) (some m) = .ok r) :
    ∃ w', w.move reports i (some t) (.still now) = .ok w' ∧ Heard w reports i t r w' := by
  obtain ⟨w', hw⟩ := h.exists_move i (some t) (.still now)
  obtain ⟨s, slot', events, hstep, hstation, hother, hself, hheard⟩ := exists_step_of_move hw
  obtain ⟨r', hr', hslot⟩ := Station.step_eq_ok hstep
  have hr' : (w.station i).Steps (.still now)
      ((w.station i).hear (slot reports (some t)) now).1 r' _ s := hr'
  rw [hm] at hr'
  obtain rfl := Except.ok.inj (hr.symm.trans hr'.reacts)
  obtain ⟨incoming, hsame⟩ := (w.station i).slot_of_hear (slot reports (some t)) now
  have hslot : slot' = (Station.emit (w.station i).node.link
      ((w.station i).hear (slot reports (some t)) now).2.1 r.emission).2.1 := hslot
  rw [hsame] at hslot
  refine ⟨w', hw, ?_, hother, hheard, fun hnone => ?_, fun e he htag hlength => ?_⟩
  · rw [hstation]
    obtain ⟨timers, random, e, a, hn⟩ := hr'.node_eq
    exact ⟨timers, random, e, a, _, hn⟩
  · rw [hnone] at hslot
    rw [hself, hslot]
    exact List.append_nil _
  · have hout : slot'.outgoing = [(e.dest, e.message.framed reports (w.own i))] := by
      rw [hslot, he]
      exact Station.outgoing_emit { slot reports (some t) with incoming }
        (l := (w.station i).node.link) rfl hlength
    have hack : (Transmission.ofEmission reports (w.own i) e).acknowledges reports = true :=
      Transmission.acknowledges_ofEmission.2 htag
    rw [hself, hout]
    change _ ++ List.filter _ [Transmission.ofEmission reports (w.own i) e] = _
    rw [List.filter_cons_of_pos hack, List.filter_nil]

/-- The node of token `i` offers its token to the other node, and still has time. -/
structure Crosses (d : Twins) (w : Meeting α) (now : Bool → Timestamp) (i : Bool) : Prop where
  gives : d.Gives i (w.station i).node (d.own (!i))
  calm : (w.station i).node.Calm (now i)

section Crossing

variable {now : Bool → Timestamp}

omit [Application α] in
/-- While its offer waits, a station listens to its radio. -/
theorem Crosses.permits (hc : d.Crosses w now i) {t : Transmission} (ht : t ∈ w.unheard (!i)) :
    w.Permits i (some t) (.still (now i)) := by
  refine ⟨hc.calm, fun t' ht' => Option.some.inj ht' ▸ ht, fun _ _ => ?_⟩
  have early := hc.calm.offer _ hc.gives.state
  refine Option.isSome_iff_ne_none.1 (Node.isSome_patience_iff.2 ⟨_, ?_, early, ?_⟩)
  · rw [Node.awaited?, hc.gives.state]
    rfl
  · simp [Node.hasWork, hc.gives.state]

theorem Crosses.react_eq (hc : d.Crosses w now i) (m : Inbound) :
    (w.station i).node.react (w.station i).app (.still (now i)) (some m) =
      .ok ((w.station i).node.hearAsGiver (w.station i).app (d.own (!i)) m) := by
  rw [Node.react, hc.gives.state]
  dsimp only
  rw [Node.awaitTaker, Readings.still, hc.calm.offer _ hc.gives.state]
  rfl

omit [Application α] in
/-- **An offer of the same round counts as outdated.** -/
theorem Crosses.judge_eq (hc : d.Crosses w now i) (hfits : d.Fits i (w.station i).node)
    {m : Inbound} (hm : m.message = .turn (d.own i) d.session (d.round i)) :
    (w.station i).node.judge (d.own (!i)) m = .outdated := by
  have hoffered := Node.offeredRound_eq (hc.gives.offer.trans (congrArg some hc.gives.frame))
    (w.station i).node.rounds.held
  unfold Node.judge
  simp only [hm, hfits.session, hfits.own, hoffered, UInt32.lt_irrefl, ne_eq,
    not_true_eq_false, if_false, if_true]

/-- A node that hears an offer of the same round acknowledges it and goes on waiting. -/
theorem Crosses.hears_offer (hc : d.Crosses w now i) (h : d.Invariant reports w)
    (hframe : d.frame (!i) = .turn (d.own i) d.session (d.round i))
    (hwf : (d.frame (!i)).WellFormed)
    (hsaid : d.shown reports (!i) ∈ w.unheard (!i)) :
    ∃ w', w.move reports i (some (d.shown reports (!i))) (.still (now i)) = .ok w' ∧
      d.Crosses w' now i ∧ w'.station (!i) = w.station (!i) ∧
      w'.unheard i = w.unheard i ++ [d.answer reports i] ∧
      w'.unheard (!i) = (w.unheard (!i)).erase (d.shown reports (!i)) := by
  have hown : w.own i = d.own i := (h.fits i).own
  let m : Inbound := ⟨d.own (!i), .everyone, d.frame (!i), (d.frame (!i)).encode⟩
  have hhear : ((w.station i).hear (slot reports (some (d.shown reports (!i)))) (now i)).1 =
      some m :=
    h.hear_eq (hc.permits hsaid) hwf (Or.inr rfl)
  obtain ⟨w', hw, ⟨timers, random, e, a, taken, hn, htimers⟩, hother, hheard, -, hanswered⟩ :=
    h.exists_heard hhear (hc.react_eq m)
  have hj := hc.judge_eq (h.fits i) (m := m) hframe
  rcases (w.station i).node.hearAsGiver_eq (w.station i).app (d.own (!i)) m with
    ⟨before, emission, hr, hsent, -⟩ | ⟨presumed, stats, before, -, hend⟩
  · have hemission : emission = some (.ack m.sender m.raw) := by
      rcases hsent with ⟨hp, -⟩ | ⟨-, hsome⟩
      · exact absurd (hp.symm.trans hj) nofun
      · exact hsome
    rw [hr] at hn htimers hanswered
    have hkeeps : timers = (w.station i).node.timers := htimers hc.gives.state.symm
    refine ⟨w', hw, ⟨?_, ?_⟩, hother, ?_, hheard⟩
    · rw [hn]
      exact ⟨rfl, hc.gives.offer, hc.gives.frame, hc.gives.held, hc.gives.seen⟩
    · rw [hn, hkeeps]
      exact ⟨⟨nofun, nofun, nofun⟩, fun _ _ => hc.calm.offer _ hc.gives.state⟩
    · rw [hown] at hanswered
      refine hanswered _ hemission rfl ?_
      simp only [hframe]
      cases reports <;> exact Nat.le_of_ble_eq_true rfl
  · rw [hj] at hend
    rcases hend with he | he <;> exact absurd he nofun

/-- **A node whose offer is acknowledged lets go of its token.** -/
theorem Crosses.hears_answer (hc : d.Crosses w now i) (h : d.Invariant reports w)
    (hsaid : d.answer reports (!i) ∈ w.unheard (!i)) :
    ∃ w', w.move reports i (some (d.answer reports (!i))) (.still (now i)) = .ok w' ∧
      (w'.station i).node.state = .listening ∧ (w'.station i).node.master = false ∧
      w'.station (!i) = w.station (!i) ∧ w'.unheard i = w.unheard i ∧
      w'.unheard (!i) = (w.unheard (!i)).erase (d.answer reports (!i)) := by
  let m : Inbound := ⟨d.own (!i), d.own (!!i), .ack (d.frame (!!i)).encode,
    (Message.ack (d.frame (!!i)).encode).encode⟩
  have hhear : ((w.station i).hear (slot reports (some (d.answer reports (!i)))) (now i)).1 =
      some m :=
    h.hear_eq (hc.permits hsaid) (Message.wellFormed_ack _)
      (Or.inl (congrArg d.own (Bool.not_not i)))
  obtain ⟨w', hw, ⟨timers, random, e, a, taken, hn, -⟩, hother, hheard, hsilent, -⟩ :=
    h.exists_heard hhear (hc.react_eq m)
  have hj : (w.station i).node.judge (d.own (!i)) m = .acknowledged := by
    unfold Node.judge
    simp only [m, Bool.not_not, hc.gives.offer, Option.map_some, true_and]
    rfl
  rcases (w.station i).node.hearAsGiver_eq (w.station i).app (d.own (!i)) m with
    ⟨before, emission, -, hsent, -⟩ | ⟨presumed, stats, before, hr, -⟩
  · rw [hj] at hsent
    rcases hsent with ⟨he, -⟩ | ⟨he, -⟩ <;> exact absurd he nofun
  · rw [hr] at hn hsilent
    refine ⟨w', hw, ?_, ?_, hother, hsilent rfl, hheard⟩
    · rw [hn]
      rfl
    · rw [hn]

end Crossing

section Both

variable {now : Bool → Timestamp}

/-- Two nodes that have heard each other's offer have acknowledged it. -/
theorem Starts.exists_answered (h : d.Starts reports w) (hcross : ∀ i, d.Crosses w now i)
    (hframe : ∀ i, d.frame (!i) = .turn (d.own i) d.session (d.round i)) :
    ∃ w', Meeting.Run reports w w' ∧ d.Invariant reports w' ∧ (∀ i, d.Crosses w' now i) ∧
      ∀ i, w'.unheard i = [d.answer reports i] := by
  have hsaid := h.said
  have hmem₁ : d.shown reports false ∈ w.unheard (!true) := by
    rw [hsaid]
    exact List.mem_cons_self
  obtain ⟨w₁, hw₁, hc₁, hother₁, hself₁, hheard₁⟩ := (hcross true).hears_offer h.invariant
    (hframe true) (h.wellFormed false) hmem₁
  have hp₁ := (hcross true).permits hmem₁
  have hinv₁ := h.invariant.move hp₁ hw₁
  rw [Bool.not_true] at hother₁ hheard₁
  rw [hsaid] at hself₁
  rw [hsaid, List.erase_cons_head] at hheard₁
  have hc₁' : d.Crosses w₁ now false :=
    ⟨hother₁ ▸ (hcross false).gives, hother₁ ▸ (hcross false).calm⟩
  have hmem₂ : d.shown reports true ∈ w₁.unheard (!false) := by
    rw [Bool.not_false, hself₁]
    exact List.mem_cons_self
  obtain ⟨w₂, hw₂, hc₂, hother₂, hself₂, hheard₂⟩ := hc₁'.hears_offer hinv₁ (hframe false)
    (h.wellFormed true) hmem₂
  have hp₂ := hc₁'.permits hmem₂
  rw [Bool.not_false] at hother₂ hheard₂
  rw [hheard₁, List.nil_append] at hself₂
  rw [hself₁, List.singleton_append, List.erase_cons_head] at hheard₂
  refine ⟨w₂, ((Meeting.Run.refl w).step hp₁ hw₁).step hp₂ hw₂, hinv₁.move hp₂ hw₂,
    fun i => ?_, fun i => ?_⟩
  · cases i with
    | false => exact hc₂
    | true => exact ⟨hother₂ ▸ hc₁.gives, hother₂ ▸ hc₁.calm⟩
  · cases i with
    | false => exact hself₂
    | true => exact hheard₂

/-- Two nodes that have heard each other's acknowledgement have let go of their tokens. -/
theorem Invariant.exists_lost (h : d.Invariant reports w) (hcross : ∀ i, d.Crosses w now i)
    (hsaid : ∀ i, w.unheard i = [d.answer reports i]) :
    ∃ w', Meeting.Run reports w w' ∧ w'.Over ∧ ∀ i, (w'.station i).node.state = .listening ∧
      (w'.station i).node.master = false := by
  have hmem₁ : d.answer reports (!true) ∈ w.unheard (!true) := by
    rw [hsaid]
    exact List.mem_cons_self
  obtain ⟨w₁, hw₁, hs₁, hm₁, hother₁, hself₁, hheard₁⟩ := (hcross true).hears_answer h hmem₁
  have hp₁ := (hcross true).permits hmem₁
  rw [Bool.not_true] at hother₁ hheard₁
  rw [hsaid] at hself₁
  rw [hsaid, List.erase_cons_head] at hheard₁
  have hc₁ : d.Crosses w₁ now false :=
    ⟨hother₁ ▸ (hcross false).gives, hother₁ ▸ (hcross false).calm⟩
  have hmem₂ : d.answer reports (!false) ∈ w₁.unheard (!false) := by
    rw [Bool.not_false, hself₁]
    exact List.mem_cons_self
  obtain ⟨w₂, hw₂, hs₂, hm₂, hother₂, hself₂, hheard₂⟩ :=
    hc₁.hears_answer (h.move hp₁ hw₁) hmem₂
  have hp₂ := hc₁.permits hmem₂
  rw [Bool.not_false] at hother₂ hheard₂
  rw [hheard₁] at hself₂
  rw [hself₁, List.erase_cons_head] at hheard₂
  refine ⟨w₂, ((Meeting.Run.refl w).step hp₁ hw₁).step hp₂ hw₂, fun i => ?_, fun i => ?_⟩
  · cases i with
    | false => exact hself₂
    | true => exact hheard₂
  · cases i with
    | false => exact ⟨hs₂, hm₂⟩
    | true =>
      rw [hother₂]
      exact ⟨hs₁, hm₁⟩

/-- **Two offers of one round can end each other**: each node acknowledges the offer of the other
one, and then lets go of its own. -/
theorem Starts.lost (h : d.Starts reports w) (hmutual : w.Mutual)
    (moment : ∀ i, ∃ now, (w.station i).node.Calm now) :
    ∃ w', Meeting.Run reports w w' ∧ w'.Over ∧ ¬w'.Survives := by
  obtain ⟨session, round, hboth⟩ := hmutual
  obtain ⟨now, hnow⟩ := Classical.axiomOfChoice moment
  have hgives : ∀ i, d.Gives i (w.station i).node (d.own (!i)) ∧ d.round i = round := by
    intro i
    obtain ⟨hstate, hoffer⟩ := hboth i
    rcases h.waiting i with hi | ⟨taker, hi⟩
    · exact absurd (hi.state.symm.trans hstate) nofun
    · obtain rfl : taker = w.own (!i) :=
        State.awaitingTaker.inj (hi.state.symm.trans hstate)
      have hround := Option.some.inj ((congrArg some hi.frame).symm.trans
        (hi.offer.symm.trans hoffer))
      exact ⟨(h.own (!i)).symm ▸ hi, (Message.turn.inj hround).2.2⟩
  have hframe : ∀ i, d.frame (!i) = .turn (d.own i) d.session (d.round i) := by
    intro i
    rw [(hgives (!i)).1.frame, (hgives (!i)).2, (hgives i).2, Bool.not_not]
  obtain ⟨w₂, hrun, hinv, hcross, hsaid⟩ :=
    h.exists_answered (fun i => ⟨(hgives i).1, hnow i⟩) hframe
  obtain ⟨w₄, hrun', hover, hlost⟩ := hinv.exists_lost hcross hsaid
  refine ⟨w₄, hrun.trans hrun', hover, fun ⟨i, hi⟩ => ?_⟩
  obtain ⟨hstate, hmaster⟩ := hlost i
  rw [hstate, hmaster] at hi
  rcases hi with hi | hi | hi <;> exact absurd hi nofun

end Both

end Twins

/-- **When two tokens meet, one is left, unless their nodes offer them to each other with the same
round**; then both can be lost.  Where one is left it is there at every moment, and no step
fails. -/
theorem token_remains_iff {α : Type} [Application α] {reports : Bool} {session : Session}
    {w : Meeting α} (begins : w.Begins reports session)
    (moment : ∀ i, ∃ now, (w.station i).node.Calm now) :
    ((∀ w', Meeting.Run reports w w' → w'.Over → w'.Survives) ↔ ¬w.Mutual) ∧
    (¬w.Mutual → ∀ w', Meeting.Run reports w w' → w'.Survives) ∧
    ∀ w', Meeting.Run reports w w' → ∀ i heard clock, w'.Permits i heard clock →
      ∃ w'', w'.move reports i heard clock = .ok w'' := by
  obtain ⟨d, h⟩ := begins.exists_starts
  have remains : ¬w.Mutual → ∀ w', Meeting.Run reports w w' → w'.Survives := by
    intro hmutual w' hr
    obtain ⟨hinv, hsafe⟩ := hr.invariant h.invariant
    exact hinv.survives (hsafe (h.safe hmutual))
  refine ⟨⟨fun hall hmutual => ?_, fun hmutual w' hr _ => remains hmutual w' hr⟩, remains,
    fun w' hr i heard clock _ => (hr.invariant h.invariant).1.exists_move i heard clock⟩
  obtain ⟨w', hr, hover, hlost⟩ := h.lost hmutual moment
  exact hlost (hall w' hr hover)

/-! ## Two nodes -/

/-- The nodes of the meetings below. -/
def nodeOfTwo (i : Bool) : Address := if i then ⟨1⟩ else ⟨2⟩

/-- The nodes 1 and 2 with a token of round 6 each, of which each has sent its payload. -/
def holdersOfTwo : Meeting Beacon where
  station i := rivalOfTwo (nodeOfTwo i)
  unheard i := [.ofEmission true (nodeOfTwo i) (.toAll (.data 6 [(nodeOfTwo i).byte, 0, 0]))]

theorem begins_holdersOfTwo : holdersOfTwo.Begins true ⟨7⟩ where
  reachable _ := reachable_rivalOfTwo _
  apart := by decide
  session := by decide
  eligible := by decide
  held := by decide
  seen := by decide
  said i := by
    refine ⟨.data 6 [(nodeOfTwo i).byte, 0, 0], ?_, ?_⟩
    · cases i <;> exact Or.inl (by decide)
    · cases i <;> decide

/-- Those two when node 2 has heard the payload of node 1. -/
def holdersOfTwo.heard : Meeting Beacon :=
  match holdersOfTwo.move true false (holdersOfTwo.unheard true).head? (.still .zero) with
  | .ok w => w
  | .error _ => holdersOfTwo

/-- Node 1 keeps its token, while node 2 yields. -/
theorem token_remains_of_two : holdersOfTwo.heard.Survives ∧
    (holdersOfTwo.heard.station false).node.state = .listening := by
  have hcalm : ∀ i, (holdersOfTwo.station i).node.Calm .zero := by
    intro i
    cases i <;> exact ⟨⟨by decide, by decide, by decide⟩, nofun⟩
  have hmutual : ¬holdersOfTwo.Mutual := fun ⟨session, round, h⟩ => absurd (h true).1 nofun
  have hpermits : holdersOfTwo.Permits false (holdersOfTwo.unheard true).head? (.still .zero) :=
    ⟨hcalm false, by decide, by decide⟩
  have hmove : holdersOfTwo.move true false (holdersOfTwo.unheard true).head? (.still .zero) =
      .ok holdersOfTwo.heard := by
    have hok : (holdersOfTwo.move true false (holdersOfTwo.unheard true).head?
        (.still .zero)).isOk = true := by decide
    unfold holdersOfTwo.heard
    cases h : holdersOfTwo.move true false (holdersOfTwo.unheard true).head? (.still .zero) with
    | error e =>
      rw [h] at hok
      exact absurd hok nofun
    | ok w => rfl
  have hrun := (Meeting.Run.refl holdersOfTwo).step hpermits hmove
  exact ⟨(token_remains_iff begins_holdersOfTwo fun i => ⟨_, hcalm i⟩).2.1 hmutual _ hrun,
    by decide⟩

/-- Node `nodeOfTwo i` when it offers a token of round 7 to the other one. -/
def giverOfTwo? (i : Bool) : Option (Station Beacon) :=
  Station.giver? (nodeOfTwo i) (nodeOfTwo (!i)) 5 [⟨1⟩, ⟨2⟩]

theorem isSome_giverOfTwo? (i : Bool) : (giverOfTwo? i).isSome = true := by
  cases i <;> decide

/-- The nodes 1 and 2 when each of them offers a token of round 7 to the other one. -/
def giversOfTwo : Meeting Beacon where
  station i := (giverOfTwo? i).get (isSome_giverOfTwo? i)
  unheard i := [.ofEmission true (nodeOfTwo i) (.toAll (.turn (nodeOfTwo (!i)) ⟨7⟩ 7))]

theorem giversOfTwo_state (i : Bool) : (giversOfTwo.station i).node.state =
    .awaitingTaker (nodeOfTwo (!i)) := by
  cases i <;> decide

theorem giversOfTwo_offer (i : Bool) : (giversOfTwo.station i).node.offer =
    some (.turn (nodeOfTwo (!i)) ⟨7⟩ 7) := by
  cases i <;> decide

theorem begins_giversOfTwo : giversOfTwo.Begins true ⟨7⟩ where
  reachable _ := Station.reachable_of_giver? (Option.some_get _).symm
  apart := by decide
  session := by decide
  eligible := by decide
  held := by decide
  seen := by decide
  said i := by
    refine ⟨.turn (nodeOfTwo (!i)) ⟨7⟩ 7, ?_, ?_⟩
    · unfold Node.Tells
      rw [giversOfTwo_state]
      exact giversOfTwo_offer i
    · cases i <;> decide

/-- None of the deadlines of those two has been reached eight seconds after their start. -/
theorem calm_giversOfTwo (i : Bool) : (giversOfTwo.station i).node.Calm (.ofMillis 8000) := by
  have hnot : ∀ s, s = .awaitingEcho ∨ s = .listening → (giversOfTwo.station i).node.state ≠ s := by
    rintro s (rfl | rfl) <;> rw [giversOfTwo_state] <;> nofun
  refine ⟨⟨fun h => ?_, fun h => ?_, fun h => ?_⟩, fun _ _ => ?_⟩
  · exact absurd h (hnot _ (Or.inl rfl))
  · exact absurd h (hnot _ (Or.inl rfl))
  · exact absurd h (hnot _ (Or.inr rfl))
  · cases i <;> decide

/-- **Both tokens can be lost**, with nothing lost on the air and before any deadline. -/
theorem tokens_lost_of_two :
    giversOfTwo.Begins true ⟨7⟩ ∧ (∀ i, (giversOfTwo.station i).node.Calm (.ofMillis 8000)) ∧
      ¬∀ w, Meeting.Run true giversOfTwo w → w.Over → w.Survives := by
  refine ⟨begins_giversOfTwo, calm_giversOfTwo, fun hall => ?_⟩
  obtain ⟨d, h⟩ := begins_giversOfTwo.exists_starts
  have hmutual : giversOfTwo.Mutual :=
    ⟨⟨7⟩, 7, fun i => ⟨by cases i <;> decide, by cases i <;> decide⟩⟩
  obtain ⟨w, hrun, hover, hlost⟩ := h.lost hmutual fun i => ⟨_, calm_giversOfTwo i⟩
  exact hlost (hall w hrun hover)

end RadioRing
