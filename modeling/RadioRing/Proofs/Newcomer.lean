import RadioRing.Proofs.Duplicates
import RadioRing.Proofs.Exchange
import RadioRing.Proofs.OnAir
import RadioRing.Proofs.Solitude

/-!
# Proofs/Newcomer — what a newcomer and its host agree on

A node that has never been in a network asks to be admitted, and a member of one answers.  Once the
answer has reached it, **both have the same session and the same idea of who takes turns**, and the
token is in one place: with the newcomer if the two are by themselves, and wherever it was before if
they are not (`join_agreement`).
-/

namespace RadioRing

variable {α : Type}

/-- What a node makes of its admission. -/
theorem Node.awaitAdmission_eq {n : Node} {app : α} {start : Timestamp} {heard : Option Inbound}
    {sender dest : Address} {session : Session} {round : UInt32} {handsOver : Bool}
    {members : List Address} {raw : Bytes} (early : n.timers.joinResend.elapsed start = false)
    (hears : heard = some ⟨sender, dest, .joinAck n.own session round handsOver members, raw⟩) :
    n.awaitAdmission app start heard =
      { node := n.adopt session round handsOver sender
        app
        before := [.joined sender session members.length handsOver round]
        transition := ⟨if handsOver then .speaking else .listening,
          ⟨n.own, true⟩ :: ⟨sender, true⟩ :: members.map (⟨·, true⟩)⟩ } := by
  subst hears
  simp [awaitAdmission, early, Transition.goTo, Transition.mark, Transition.withMarks]

variable [Application α]

/-- **A node without a session has never been in a network** since it was switched on. -/
theorem Station.Run.session_eq_none {s t : Station α} {run : List (Moment α)} (h : s.Run run t)
    (ht : t.node.session = none) : ∀ x ∈ run, x.before.node.session = none := by
  induction h with
  | refl => exact fun x hx => absurd hx List.not_mem_nil
  | @step run x _ hx ih =>
    have hbefore : x.before.node.session = none := by
      refine Option.not_isSome_iff_eq_none.1 fun hsome => ?_
      have hafter := hx.acts.session_isSome hsome
      rw [← hx.session_after, ht] at hafter
      exact absurd hafter nofun
    exact List.forall_mem_append.2 ⟨ih hbefore, List.forall_mem_singleton.2 hbefore⟩

/-- The step `x` of a member answers the request of a newcomer, and the answer reaches the newcomer
in its step `y`. -/
structure Moment.Admits (x y : Moment α) : Prop where
  host : x.before.Reachable
  newcomer : y.before.Reachable
  apart : y.before.node.own ≠ x.before.node.own
  roster : ∀ a, a ∈ y.before.node.settings.roster ↔ a ∈ x.before.node.settings.roster
  answers : x.Happens
  answering : x.before.node.state = .admitting y.before.node.own
  due : x.before.node.timers.reply.elapsed x.clock.start = true
  member : x.before.node.session.isSome = true
  hears : y.Happens
  waiting : y.before.node.state = .awaitingAdmission
  /-- The newcomer has never been in a network (`Station.Run.session_eq_none`). -/
  outside : y.before.node.session = none
  patient : y.before.node.timers.joinResend.elapsed y.clock.start = false
  reaches : x.Reaches y

/-- What a newcomer that holds the token knows is what its host takes note of. -/
theorem Node.seen_letGoTo (n m : Node) (session : Session) (joiner via : Address) :
    (n.letGoTo joiner).rounds.seen = (m.adopt session n.rounds.seen true via).rounds.seen := by
  have htop : (Rounds.observe {} n.rounds.seen).top = n.rounds.seen.toNat := by
    simp [Rounds.top, Rounds.observe, toNat_max]
  have hseen : (m.adopt session n.rounds.seen true via).rounds.seen =
      (Rounds.observe {} n.rounds.seen).next := Rounds.seen_claim _
  rw [hseen]
  refine UInt32.toNat_inj.1 ?_
  by_cases hlast : n.rounds.seen = 4294967295
  · have htoNat : n.rounds.seen.toNat = lastRound := congrArg UInt32.toNat hlast
    rw [seen_letGoTo_eq_iff.2 hlast, Rounds.toNat_next_last (htop.trans htoNat), htoNat]
  · rw [toNat_seen_letGoTo hlast, Rounds.toNat_next (htop ▸ toNat_lt_lastRound hlast), htop]

namespace Moment.Admits

variable {x y : Moment α}

/-- **The newcomer hears what its host answers**, and adopts all of it. -/
theorem exists_adopts (h : x.Admits y) : ∃ session e handsOver,
    x.before.node.session = some session ∧ x.before.Answered y.before.node.own e x.after ∧
    (handsOver = true ↔ ¬x.before.Crowded y.before.node.own) ∧
    y.reaction.node =
      y.before.node.adopt session x.before.node.rounds.seen handsOver x.before.node.own ∧
    y.reaction.transition = ⟨if handsOver then .speaking else .listening,
      ⟨y.before.node.own, true⟩ :: ⟨x.before.node.own, true⟩ ::
        (x.before.node.table.eligibleWith [x.before.node.own, y.before.node.own]).map (⟨·, true⟩)⟩ := by
  obtain ⟨session, hsession⟩ := Option.isSome_iff_exists.1 h.member
  obtain ⟨e, he⟩ := h.reaches.exists_emission
  have hanswered := Station.answered_of_happens h.answers h.answering hsession he
  obtain ⟨session', hsession', rfl⟩ := hanswered.answer
  obtain rfl : session = session' := Option.some.inj (hsession.symm.trans hsession')
  have hfits : (x.before.node.answerFor session y.before.node.own).WellFormed :=
    (Station.sound_of_reachable h.host).wellFormed_answerFor hsession
      (Settings.ne_everyone_of_check (Station.sound_of_reachable h.newcomer).accepted
        h.newcomer.own_mem)
  have hheard := h.reaches.heard_eq he h.apart.symm ((h.roster _).2 h.host.own_mem) (Or.inr rfl)
    hfits
  have hreact : y.before.node.react y.before.app y.clock y.heard =
      .ok (y.before.node.awaitAdmission y.before.app y.clock.start y.heard) := by
    unfold Node.react
    rw [h.waiting]
  rw [Node.awaitAdmission_eq h.patient hheard] at hreact
  have hr := h.hears.reaction_eq hreact
  exact ⟨session, _, _, hsession, hanswered, by simp [Station.Crowded],
    congrArg Reaction.node hr, congrArg Reaction.transition hr⟩

/-- The host listens again once it has answered. -/
theorem host_listens (h : x.Admits y) : x.after.node.state = .listening := by
  obtain ⟨session, hsession⟩ := Option.isSome_iff_exists.1 h.member
  obtain ⟨e, he⟩ := h.reaches.exists_emission
  rw [h.answers.state_after]
  rcases h.answers.of_admitting h.answering hsession with ⟨hnone, -⟩ | ⟨-, -, htrans⟩
  · exact absurd (hnone.symm.trans he) nofun
  · rw [htrans]
    rfl

/-- **Both have the same idea of who takes turns.** -/
theorem eligible_eq (h : x.Admits y) :
    y.after.node.table.eligible = x.after.node.table.eligible := by
  obtain ⟨session, e, handsOver, -, hanswered, -, -, htrans⟩ := h.exists_adopts
  have hcontains (a : Address) : y.before.node.table.contains a = true ↔
      x.before.node.table.contains a = true := by
    rw [h.newcomer.contains_iff, h.host.contains_iff, h.roster]
  have hnobody : ∀ a, y.before.node.table.isEligible a = false := by
    refine (h.newcomer.outside.resolve_left ?_).2
    rw [h.outside]
    nofun
  let pair := [x.before.node.own, y.before.node.own]
  have hhost (a : Address) : (∃ mark ∈ Station.answerMarks x.before.node.own y.before.node.own,
      mark.node = a) ↔ a ∈ pair := by
    simp [Station.answerMarks, pair, eq_comm]
  have hnewcomer (a : Address) : (∃ mark ∈ y.reaction.transition.marks, mark.node = a) ↔
      x.before.node.table.isEligible a = true ∨ a ∈ pair := by
    simp only [htrans, List.mem_cons, List.mem_map, Membership.mem_eligibleWith, pair]
    grind
  have hknown {a : Address} (ha : x.before.node.table.isEligible a = true) :
      x.before.node.table.contains a = true := Membership.contains_of_isEligible ha
  refine Membership.eligible_congr fun a => ?_
  rw [h.hears.table_after, hanswered.table, Membership.isEligible_markAll (by simp [htrans]),
    Membership.isEligible_markAll (by simp [Station.answerMarks]), hnobody, hcontains, hhost,
    hnewcomer, and_or_left, and_iff_right_of_imp hknown]
  simp

end Moment.Admits

/-- **A newcomer and its host agree.**  When the answer to a request has reached a node that has
never been in a network, it has the session of the one that answered, and the same nodes take turns
for both.  The host listens and is not master.  If nobody but the two takes turns, the newcomer holds
the token, begins its turn with a round that both know, and its host takes it for the holder; if
somebody else does, the newcomer holds nothing, listens, knows the round that its host knows, and
takes its host for the holder. -/
theorem join_agreement {x y : Moment α} (h : x.Admits y) :
    x.before.Proceeds ∧ y.before.Proceeds ∧
    (∃ session, x.after.node.session = some session ∧ y.after.node.session = some session) ∧
    y.after.node.table.eligible = x.after.node.table.eligible ∧
    x.after.node.state = .listening ∧ x.after.node.master = false ∧
    (¬x.before.Crowded y.before.node.own → y.after.node.state = .speaking ∧
      y.after.node.rounds.held = y.after.node.rounds.seen ∧
      x.after.node.rounds.seen = y.after.node.rounds.seen ∧
      x.after.node.presumedHolder = some y.before.node.own) ∧
    (x.before.Crowded y.before.node.own → y.after.node.state = .listening ∧
      y.after.node.rounds.held = 0 ∧ y.after.node.rounds.seen = x.after.node.rounds.seen ∧
      y.after.node.presumedHolder = some x.before.node.own) := by
  obtain ⟨session, e, handsOver, hsession, hanswered, hhands, hnode, htrans⟩ := h.exists_adopts
  have hstate := h.hears.state_after
  have hrounds := h.hears.rounds_after
  have hholder := h.hears.presumedHolder_after
  have hmaster := (Station.sound_of_reachable (h.host.moment h.answers)).master
  rw [h.host_listens] at hmaster
  rw [hnode] at hrounds hholder
  rw [htrans] at hstate
  have hsession' := h.hears.session_after
  rw [hnode] at hsession'
  refine ⟨?_, ?_, ⟨session, hanswered.session.trans hsession, hsession'⟩, h.eligible_eq,
    h.host_listens, hmaster, fun hc => ?_, fun hc => ?_⟩
  · exact Station.proceeds_of_state (by simp [h.answering])
  · exact Station.proceeds_of_state (by simp [h.waiting])
  · obtain ⟨hrounds', hholder'⟩ := hanswered.uncrowded hc
    obtain rfl := hhands.2 hc
    rw [hstate, hrounds, hrounds', hholder']
    exact ⟨rfl, (Rounds.held_claim _).trans (Rounds.seen_claim _).symm, Node.seen_letGoTo .., rfl⟩
  · obtain ⟨hrounds', -⟩ := hanswered.crowded hc
    obtain rfl : handsOver = false := Bool.eq_false_iff.2 fun ht => hhands.1 ht hc
    rw [hstate, hrounds, hrounds', hholder]
    refine ⟨rfl, rfl, UInt32.toNat_inj.1 ?_, rfl⟩
    exact (Rounds.toNat_seen_observe _ _).trans (Nat.max_eq_right (Nat.zero_le _))

/-! ## Node 2 gets into the network of node 1 -/

/-- Node 2 is switched on, asks to be admitted, and hears the answer of node 1. -/
def admitted? (crowded : Bool) : Option (Moment Beacon) :=
  (Station.played? ⟨2⟩ [(.zero, []), (.zero,
    [⟨some ⟨1⟩, .everyone, (answerToTwo crowded 5).message.encode⟩])]).bind fun p => p.2.1[1]?

theorem isSome_admitted? (crowded : Bool) : (admitted? crowded).isSome = true := by
  cases crowded <;> decide

def admitted (crowded : Bool) : Moment Beacon := (admitted? crowded).get (isSome_admitted? crowded)

theorem happens_admitted (crowded : Bool) :
    (admitted crowded).before.Reachable ∧ (admitted crowded).Happens :=
  Station.happens_of_played? (Option.some_get (isSome_admitted? crowded)).symm

theorem admits_admitted (crowded : Bool) :
    (handledTwice crowded).2.1.2.Admits (admitted crowded) := by
  obtain ⟨hreachable, hfirst, -⟩ := handled_handledTwice crowded
  obtain ⟨hasked, hbefore, hanswers, hjust⟩ := happens_of_handled? hfirst
  obtain ⟨hnewcomer, hhears⟩ := happens_admitted crowded
  rw [← hbefore] at hreachable
  refine ⟨hjust ▸ hreachable.moment hasked, hnewcomer, ?_, ?_, hanswers, ?_, ?_, ?_, hhears, ?_, ?_,
    ?_, ?_⟩
  case refine_2 =>
    have hroster : (admitted crowded).before.node.settings.roster =
        (handledTwice crowded).2.1.2.before.node.settings.roster := by
      cases crowded <;> decide
    simp [hroster]
  case refine_9 =>
    refine ⟨?_, answerToTwo crowded 5, ?_, true, ?_⟩ <;> cases crowded <;> decide
  all_goals cases crowded <;> decide

/-- Node 2 gets into the network of node 1: with the token if the two are by themselves, and without
it if node 3 is there. -/
theorem join_agreement_of_two :
    ((admitted false).after.node.state = .speaking ∧
      (admitted false).after.node.table.eligible = [⟨1⟩, ⟨2⟩]) ∧
    (admitted true).after.node.state = .listening ∧
      (admitted true).after.node.table.eligible = [⟨1⟩, ⟨2⟩, ⟨3⟩] := by
  obtain ⟨-, -, -, heligible, -, -, hspeaks, -⟩ := join_agreement (admits_admitted false)
  obtain ⟨-, -, -, heligible', -, -, -, hlistens⟩ := join_agreement (admits_admitted true)
  refine ⟨⟨(hspeaks ?_).1, heligible.trans ?_⟩, (hlistens ?_).1, heligible'.trans ?_⟩
  · unfold Station.Crowded
    decide
  · decide
  · unfold Station.Crowded
    decide
  · decide

end RadioRing
