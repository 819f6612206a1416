import RadioRing.Proofs.Payloads
import RadioRing.Proofs.Pulse

/-!
# Proofs/OnTime — a turn ends when its time is over

Once its payload is on the air, a node waits for an echo or is about to say the payload again
(`State.isOnAir`).  Only the beginning of a turn leads there, and **what the node does there leaves
the end of the turn and its payload alone and never lowers the round it holds** (`Acts.upholds`),
whatever it hears and whatever becomes of its frames.  So the payloads of a turn are one payload,
none is said when the time of the turn is over, and the next step then ends the turn and listens to
nobody (`turn_ends_on_time`).
-/

namespace RadioRing

/-- The payload of the turn is on the air: the node waits for an echo, or is about to say it
again. -/
def State.isOnAir : State → Bool
  | awaitingEcho | repeating => true
  | _ => false

theorem State.isOnAir_iff {s : State} :
    s.isOnAir = true ↔ s = .awaitingEcho ∨ s = .repeating := by
  cases s <;> simp [isOnAir]

theorem State.isMaster_of_isOnAir {s : State} (h : s.isOnAir = true) : s.isMaster = true := by
  obtain rfl | rfl := State.isOnAir_iff.1 h <;> rfl

/-- The round and the body of a payload. -/
def Message.payload? : Message → Option (UInt32 × Bytes)
  | data round body | retry round body => some (round, body)
  | _ => none

theorem Message.payload?_eq_some_iff {m : Message} {p : UInt32 × Bytes} :
    m.payload? = some p ↔ m = .data p.1 p.2 ∨ m = .retry p.1 p.2 := by
  obtain ⟨round, body⟩ := p
  cases m <;> simp [payload?]

namespace Node

variable {n n' : Node} {clock : Readings} {heard : Option Inbound} {e : Option Emission}
  {t : Transition} {due : Deadline} {p : UInt32 × Bytes}

/-- The turn of the node ends at `due`, and the payload `p` is its own, in the round that it holds
or in an earlier one. -/
structure Upholds (n : Node) (due : Deadline) (p : UInt32 × Bytes) : Prop where
  due : n.timers.turn = due
  body : n.outgoing = p.2
  round : p.1 ≤ n.rounds.held

/-- **What a holder hears leaves its turn alone**, as long as it goes on with it. -/
theorem HolderHears.upholds {m : Inbound} (h : n.HolderHears m n' e t) (hn : n.Upholds due p)
    (air : t.next.isOnAir = true) : n'.Upholds due p := by
  cases h with
  | garbled | stays => exact hn
  | @offered session round =>
    refine ⟨hn.due, hn.body, UInt32.le_trans hn.round (UInt32.le_iff_toNat_le.2 ?_)⟩
    rw [Rounds.toNat_held_accept]
    exact Nat.le_max_left _ _
  | echoed | yields => exact absurd air Bool.false_ne_true

/-- **A payload that is on the air was so before**, unless the turn begins, and the step has left
the turn alone. -/
theorem Acts.upholds (h : n.Acts clock heard n' e t) (fresh : n.state ≠ .speaking)
    (air : t.next.isOnAir = true) :
    n.state.isOnAir = true ∧ ∀ {due p}, n.Upholds due p → n'.Upholds due p := by
  cases h with
  | joins => split at air <;> exact absurd air Bool.false_ne_true
  | waitsToReply state =>
    rw [Transition.next_goTo] at air
    have hmaster := State.isMaster_of_isReplying state
    exact absurd (hmaster.symm.trans (State.isMaster_of_isOnAir air)) Bool.false_ne_true
  | idles => exact ⟨air, id⟩
  | speaks state => exact absurd state fresh
  | turnsToRepeat state => exact ⟨by rw [state]; rfl, id⟩
  | hearsHolding state _ _ _ makes => exact ⟨by rw [state]; rfl, fun hn => makes.upholds hn air⟩
  | repeats state => exact ⟨by rw [state]; rfl, fun ⟨due, body, round⟩ => ⟨due, body, round⟩⟩
  | hearsListening _ _ _ makes | hearsAlone _ _ _ makes | hearsGiving _ _ _ makes =>
    cases makes <;> exact absurd air Bool.false_ne_true
  | _ => exact absurd air Bool.false_ne_true

/-- When the time of the turn is over the node is not ready to hear anything. -/
theorem patience_of_isOnAir (air : n.state.isOnAir = true) {now : Timestamp}
    (due : n.timers.turn.elapsed now = true) : n.patience now = none := by
  refine patience_eq_none_iff.2 ?_
  obtain hs | hs := State.isOnAir_iff.1 air
  · simp [awaited?, hs, Deadline.elapsed_earlier, due]
  · simp [awaited?, hs]

/-- **When the time of the turn is over it ends**, and nothing is said. -/
theorem react_of_isOnAir {α : Type} [Application α] (app : α) (heard : Option Inbound)
    (air : n.state.isOnAir = true) (due : n.timers.turn.elapsed clock.start = true) : ∃ before,
    n.react app clock heard = .ok { node := n, app, before, transition := .goTo .offering } := by
  obtain hs | hs := State.isOnAir_iff.1 air
  · exact ⟨[.turnElapsed], by simp [react, hs, awaitEcho, due]⟩
  · exact ⟨[], by simp [react, hs, repeatPayload, due]⟩

end Node

variable {α : Type}

namespace Moment

/-- The payload that the step asks to send, for the first time or again. -/
def payload? (x : Moment α) : Option (UInt32 × Bytes) :=
  x.reaction.emission.bind (·.message.payload?)

variable {x : Moment α} {due : Deadline} {p : UInt32 × Bytes}

theorem says_of_payload? (h : x.payload? = some p) :
    x.Says (.data p.1 p.2) ∨ x.Says (.retry p.1 p.2) := by
  obtain ⟨e, he, hm⟩ := Option.bind_eq_some_iff.1 h
  exact (Message.payload?_eq_some_iff.1 hm).imp (fun hm => ⟨e, he, hm⟩) fun hm => ⟨e, he, hm⟩

variable [Application α]

theorem Happens.outgoing_after (h : x.Happens) :
    x.after.node.outgoing = x.reaction.node.outgoing := by
  obtain ⟨timers, random, e, a, hn⟩ := h.node_after
  rw [hn]

/-- Sending the frame and moving on leave the turn as the rule has left it. -/
theorem Happens.upholds_after (h : x.Happens) (hn : x.reaction.node.Upholds due p)
    (air : x.reaction.transition.next.isOnAir = true) : x.after.node.Upholds due p where
  due := (h.timers_after (Or.inr (State.armed_of_isMaster (State.isMaster_of_isOnAir air)))).symm ▸
    hn.due
  body := h.outgoing_after.trans hn.body
  round := h.rounds_after.symm ▸ hn.round

/-- The rule that begins a turn. -/
theorem Happens.reaction_of_speaking (h : x.Happens) (hs : x.before.node.state = .speaking) :
    x.reaction = x.before.node.speak x.before.app x.clock.start :=
  h.reaction_eq (by rw [Node.react, hs])

/-- The rule that says the payload again. -/
theorem Happens.reaction_of_repeating (h : x.Happens) (hs : x.before.node.state = .repeating) :
    x.reaction = x.before.node.repeatPayload x.before.app x.clock.start :=
  h.reaction_eq (by rw [Node.react, hs])

/-- **A turn is timed from the step that begins it**, and upholds the payload that it says. -/
theorem Happens.upholds_of_speaking (h : x.Happens) (hs : x.before.node.state = .speaking) :
    ∃ p, x.payload? = some p ∧ x.after.node.state = .awaitingEcho ∧
      x.after.node.Upholds (.after x.clock.start x.before.node.settings.timings.turn) p := by
  have hr := h.reaction_of_speaking hs
  refine ⟨(x.before.node.rounds.held, x.reaction.node.outgoing), ?_, ?_, h.upholds_after ?_ ?_⟩
  · rw [payload?, hr]
    rfl
  · rw [h.state_after, hr]
    rfl
  · rw [hr]
    exact ⟨rfl, rfl, UInt32.le_refl _⟩
  · rw [hr]
    rfl

/-- **A payload is said again before the turn is over**, and it is the one that the node upholds. -/
theorem Happens.upholds_of_repeating (h : x.Happens) (hs : x.before.node.state = .repeating)
    (hp : x.payload? = some p) : x.before.node.timers.turn.elapsed x.clock.start = false ∧
      p = (x.before.node.rounds.held, x.before.node.outgoing) ∧
      x.after.node.Upholds x.before.node.timers.turn p := by
  have hr := h.reaction_of_repeating hs
  unfold Node.repeatPayload at hr
  split at hr
  · rw [payload?, hr] at hp
    exact absurd hp nofun
  · rename_i early
    rw [payload?, hr] at hp
    obtain rfl := Option.some.inj hp
    refine ⟨Bool.eq_false_iff.2 early, rfl, h.upholds_after ?_ ?_⟩
    · rw [hr]
      exact ⟨rfl, rfl, UInt32.le_refl _⟩
    · rw [hr]
      rfl

end Moment

namespace Station

variable [Application α] {s t : Station α} {x : Moment α} {late run : List (Moment α)}
  {due : Deadline} {p : UInt32 × Bytes}

/-- Payloads are said at the beginning of a turn, and when it is time to repeat them. -/
theorem Reachable.state_of_payload? (h : x.before.Reachable) (hx : x.Happens)
    (hp : x.payload? = some p) :
    x.before.node.state = .speaking ∨ x.before.node.state = .repeating := by
  obtain ⟨m, hm, htag⟩ : ∃ m, x.Says m ∧ (m.tag = .data ∨ m.tag = .retry) := by
    rcases Moment.says_of_payload? hp with hm | hm
    · exact ⟨_, hm, Or.inl rfl⟩
    · exact ⟨_, hm, Or.inr rfl⟩
  obtain ⟨-, -, ⟨hs, -⟩ | ⟨hs, -⟩⟩ := h.of_payload hx hm htag
  · exact Or.inl hs
  · exact Or.inr hs

/-- **As long as no other turn begins, a payload on the air belongs to this one.** -/
theorem Run.upholds (h : s.Run run t) (same : ∀ z ∈ run, z.before.node.state ≠ .speaking)
    (hs : s.node.state.isOnAir = true → s.node.Upholds due p) (air : t.node.state.isOnAir = true) :
    t.node.Upholds due p := by
  -- A payload comes on the air by a new turn only, so here it was there in every moment before.
  induction h with
  | refl => exact hs air
  | @step run z h hz ih =>
    obtain ⟨hrun, hlast⟩ := List.forall_mem_append.1 same
    rw [hz.state_after] at air
    obtain ⟨hair, hkeeps⟩ := hz.acts.upholds (hlast z List.mem_cons_self) air
    exact hz.upholds_after (hkeeps (ih hrun hair)) air

/-- **Every payload that is said in the meantime is the one that is upheld**, before the turn is
over and in no earlier round. -/
theorem Run.of_payload? (h : s.Run run t) (hr : s.Reachable)
    (same : ∀ z ∈ run, z.before.node.state ≠ .speaking)
    (hs : s.node.state.isOnAir = true → s.node.Upholds due p) {z : Moment α} (hz : z ∈ run)
    {q : UInt32 × Bytes} (hq : z.payload? = some q) :
    due.elapsed z.clock.start = false ∧ p.1 ≤ q.1 ∧ p.2 = q.2 := by
  obtain ⟨first, between, rfl, hfirst, hx, -⟩ := h.of_mem hz
  obtain ⟨hearly, hlate⟩ := List.forall_mem_append.1 same
  have hstate : z.before.node.state = .repeating :=
    ((hfirst.reachable hr).state_of_payload? hx hq).resolve_left (hlate z List.mem_cons_self)
  obtain ⟨rfl, hbody, hround⟩ := hfirst.upholds hearly hs (by rw [hstate]; rfl)
  obtain ⟨early, rfl, -⟩ := hx.upholds_of_repeating hstate hq
  exact ⟨early, hround, hbody.symm⟩

/-- What a step says is upheld after it. -/
theorem Reachable.upholds_payload? (h : x.before.Reachable) (hx : x.Happens)
    (hp : x.payload? = some p) : ∃ due, x.after.node.Upholds due p := by
  rcases h.state_of_payload? hx hp with hs | hs
  · obtain ⟨q, hq, -, hn⟩ := hx.upholds_of_speaking hs
    obtain rfl := Option.some.inj (hq.symm.trans hp)
    exact ⟨_, hn⟩
  · exact ⟨_, (hx.upholds_of_repeating hs hp).2.2⟩

/-- **The payloads of a turn are one payload, in rounds that never fall.** -/
theorem Run.pairwise_payloads (hr : s.Reachable) (h : s.Run (x :: late) t)
    (same : ∀ z ∈ late, z.before.node.state ≠ .speaking) :
    ((x :: late).filterMap Moment.payload?).Pairwise fun p q => p.1 ≤ q.1 ∧ p.2 = q.2 := by
  induction late generalizing s x with
  | nil => cases hp : x.payload? <;> simp [hp]
  | cons z late ih =>
    obtain ⟨rfl, hx, hrun⟩ := h.of_cons
    have hrest := ih (hr.moment hx) hrun fun y hy => same y (List.mem_cons_of_mem _ hy)
    cases hp : x.payload? with
    | none => rwa [List.filterMap_cons_none hp]
    | some p =>
      rw [List.filterMap_cons_some hp]
      refine List.pairwise_cons.2 ⟨fun q hq => ?_, hrest⟩
      obtain ⟨y, hy, hyq⟩ := List.mem_filterMap.1 hq
      obtain ⟨due, hn⟩ := hr.upholds_payload? hx hp
      exact (hrun.of_payload? (hr.moment hx) same (fun _ => hn) hy hyq).2

/-- **When the time of the turn is over the next step ends it**: it succeeds, it takes nothing from
the radio and sends nothing, and the node is about to offer the token. -/
theorem step_of_isOnAir {ρ : Type} [Radio ρ] (radio : ρ) {clock : Readings}
    (air : t.node.state.isOnAir = true) (due : t.node.timers.turn.elapsed clock.start = true) :
    t.hear radio clock.start = (none, radio, []) ∧
      ∃ events, t.step radio clock = .ok ({ t with node.state := .offering }, radio, events) := by
  have hhear : t.hear radio clock.start = (none, radio, []) :=
    hear_of_patience_eq_none (Node.patience_of_isOnAir air due) radio
  obtain ⟨before, hreact⟩ := Node.react_of_isOnAir t.app none air due
  have hne : State.offering ≠ t.node.state := fun h => by
    rw [← h] at air
    exact absurd air Bool.false_ne_true
  refine ⟨hhear, [] ++ before ++ [] ++ [] ++ [.moved t.node.state .offering], ?_⟩
  simp [step, bind, Except.bind, hhear, hreact, emit, Reaction.finish, Node.move,
    Node.applyMarks, hne, Node.enter, pure, Except.pure]

end Station

/-- **A turn ends on time.**  A node begins its turn with the step `x`, and no other turn begins in
the steps `late` after it, whatever the node hears in them and whatever becomes of its frames.  All
payloads that are said carry one body, in rounds that never fall, and none is said again in a step
that comes when the time of the turn is over.  If the node still waits for an echo, or is about to
say its payload again, then every step from that time on succeeds: it makes the node offer the
token, and takes nothing from the radio. -/
theorem turn_ends_on_time [Application α] {s t : Station α} {x : Moment α}
    {late : List (Moment α)} (h : s.Reachable) (run : s.Run (x :: late) t)
    (speaks : s.node.state = .speaking) (same : ∀ z ∈ late, z.before.node.state ≠ .speaking) :
    let finish := x.clock.start.millis + s.node.settings.timings.turn.wholeMillis
    (((x :: late).filterMap Moment.payload?).Pairwise fun p q => p.1 ≤ q.1 ∧ p.2 = q.2) ∧
    (∀ z ∈ late, ∀ round body, z.Says (.retry round body) → z.clock.start.millis < finish) ∧
    (t.node.state.isOnAir = true → ∀ {ρ : Type} [Radio ρ] (radio : ρ) (clock : Readings),
      finish ≤ clock.start.millis → t.hear radio clock.start = (none, radio, []) ∧ ∃ events,
        t.step radio clock = .ok ({ t with node.state := .offering }, radio, events)) := by
  intro finish
  have pairwise := run.pairwise_payloads h same
  obtain ⟨rfl, hx, hrun⟩ := run.of_cons
  obtain ⟨p, -, -, hn⟩ := hx.upholds_of_speaking speaks
  have hover : (Deadline.after x.clock.start x.before.node.settings.timings.turn).moment.millis ≤
      finish := Deadline.millis_after_le _ _
  refine ⟨pairwise, fun z hz round body hsays => ?_, fun air ρ _ radio clock past => ?_⟩
  · obtain ⟨e, he, hm⟩ := hsays
    have hq : z.payload? = some (round, body) := by
      rw [Moment.payload?, Option.mem_def.1 he, Option.bind_some, hm]
      rfl
    have early := (hrun.of_payload? (h.moment hx) same (fun _ => hn) hz hq).1
    exact Nat.lt_of_lt_of_le (Deadline.elapsed_eq_false_iff.1 early) hover
  · have hdue := (hrun.upholds same (fun _ => hn) air).due
    exact Station.step_of_isOnAir radio air
      (hdue ▸ Deadline.elapsed_iff.2 (Nat.le_trans hover past))

/-- Node 1 when it is about to say the payload of its slow turn for the third time. -/
def overdue : Moment Beacon := slowTurn.get ⟨6, by decide +kernel⟩

/-- **Node 1 has said its payload again before the eight seconds of its turn were over**, and does
not do so once more: the offer that waits on its radio is left there. -/
theorem turn_ends_on_time_of_slow_turn :
    (slowTurn.take 6).filterMap Moment.payload? = [(6, [1, 0, 0]), (6, [1, 0, 0])] ∧
    slowRepetition.Says (.retry 6 [1, 0, 0]) ∧ slowRepetition.clock.start.millis < 8000 ∧
    overdue.before.node.state = .repeating ∧
    ∃ events, overdue.before.step
      ({ inbox := [⟨some ⟨2⟩, .everyone, (Message.turn ⟨1⟩ ⟨7⟩ 9).encode⟩] } : ScriptedRadio)
      (.still (.ofMillis 9000)) = .ok ({ overdue.before with node.state := .offering },
        { inbox := [⟨some ⟨2⟩, .everyone, (Message.turn ⟨1⟩ ⟨7⟩ 9).encode⟩] }, events) := by
  obtain ⟨s, hs, hrun⟩ := run_slowTurn
  have hstart : slowTurn.take 6 = slowStart :: (slowTurn.take 6).drop 1 :=
    Station.eq_take_append_get (slowTurn.take 6) ⟨0, by decide +kernel⟩
  have hsplit : slowTurn = slowTurn.take 6 ++ overdue :: slowTurn.drop 7 :=
    Station.eq_take_append_get slowTurn ⟨6, by decide +kernel⟩
  rw [hsplit] at hrun
  obtain ⟨hrun, -, -⟩ := hrun.of_middle
  rw [hstart] at hrun
  obtain ⟨rfl, -, -⟩ := hrun.of_cons
  obtain ⟨-, early, ends⟩ :=
    turn_ends_on_time hs hrun (by decide +kernel) (by decide +kernel)
  have repeats : slowRepetition.Says (.retry 6 [1, 0, 0]) := by
    unfold Moment.Says
    decide +kernel
  have member : slowRepetition ∈ (slowTurn.take 6).drop 1 :=
    List.mem_of_getElem (i := 2) (h := by decide +kernel) rfl
  exact ⟨by decide +kernel, repeats, early _ member 6 [1, 0, 0] repeats, by decide +kernel,
    (ends (by decide +kernel) _ _ (by decide +kernel)).2⟩

end RadioRing
