import RadioRing.Proofs.ClockOrder
import RadioRing.Proofs.Deliveries
import RadioRing.Proofs.Isolation
import RadioRing.Proofs.Overflows
import RadioRing.Proofs.Pulse

/-!
# Proofs/PutAside — a message that comes too early waits

A listener that has taken a payload up waits for the moment to acknowledge it.  All that it does
until then is to put the first message aside that it hears, and to count the others as dropped
(`Station.waiting`).  **Then it acknowledges once, listens, and looks first at the message that it
has put aside** (`payload_acknowledged_once`).
-/

namespace RadioRing

/-! ## Entering a state -/

namespace Node

variable {n n' : Node} {t : Transition} {now : Timestamp} {events : List Event}

/-- A transition into another state enters it once the table is changed. -/
theorem enter_of_move (h : n.move t now = .ok (n', events)) (moves : t.next ≠ n.state) :
    ({ (n.applyMarks t.marks).1 with state := t.next } : Node).enter now = .ok n' := by
  obtain ⟨e, a, hm⟩ := n.fst_applyMarks t.marks
  unfold move at h
  generalize n.applyMarks t.marks = p at hm h ⊢
  obtain ⟨marked, remarks⟩ := p
  subst hm
  dsimp only at h ⊢
  rw [if_neg moves] at h
  split at h
  · rename_i hentered
    rw [hentered, (Prod.mk.inj (Except.ok.inj h)).1]
  · exact absurd h nofun

theorem watchdog_of_enter (h : n.enter now = .ok n') (hs : n.state = .listening) :
    n'.timers.watchdog = .after now n.settings.timings.watchdog := by
  unfold enter at h
  rw [hs] at h
  rw [← Except.ok.inj h]

theorem reply_of_enter {holder : Address} {echo : Bytes} (h : n.enter now = .ok n')
    (hs : n.state = .acknowledging holder echo) :
    n'.timers.reply = .after now (n.random.delay n.settings.timings.answerJitter) := by
  unfold enter at h
  rw [hs] at h
  rw [← Except.ok.inj h]
  exact congrArg (Deadline.after now) (n.fst_jitter _)

end Node

/-- A random delay is no longer than its bound. -/
theorem Random.Stream.delay_le (s : Random.Stream) (most : Duration) : s.delay most ≤ most := by
  have hwhole : most.clockMillis ≤ most.wholeMillis := Nat.min_le_left _ _
  exact Nat.le_trans (s.nanos_delay_le most)
    (Nat.le_trans (Nat.mul_le_mul_right _ hwhole) (Nat.div_mul_le_self _ _))

variable {α : Type}

namespace Moment

variable [Application α] {x : Moment α} {m : Inbound} {holder : Address} {echo : Bytes}

/-- **A step into another state enters it** with the settings of the node. -/
theorem Happens.enters (h : x.Happens) (moves : x.after.node.state ≠ x.before.node.state) :
    ∃ n : Node, n.state = x.after.node.state ∧ n.settings = x.before.node.settings ∧
      n.enter x.clock.entered = .ok x.after.node := by
  obtain ⟨events, hf⟩ := h.steps.ends
  obtain ⟨e, a, hm⟩ := Node.fst_applyMarks x.reaction.transition.marks
    { x.reaction.node with stats := x.reaction.booked x.taken }
  rw [h.state_after] at moves ⊢
  refine ⟨_, rfl, ?_, Node.enter_of_move
    (n := { x.reaction.node with stats := x.reaction.booked x.taken }) hf ?_⟩
  · rw [hm]
    exact h.acts.settings_eq
  · exact fun same => moves (same.trans h.acts.state_eq)

/-- Whoever begins to listen is patient from then on. -/
theorem Happens.watchdog_after (h : x.Happens) (hbefore : x.before.node.state ≠ .listening)
    (hafter : x.after.node.state = .listening) : x.after.node.timers.watchdog =
      .after x.clock.entered x.before.node.settings.timings.watchdog := by
  obtain ⟨n, hstate, hsettings, henter⟩ := h.enters (hafter ▸ hbefore.symm)
  rw [← hsettings]
  exact Node.watchdog_of_enter henter (hstate.trans hafter)

/-- Whoever takes a payload up answers after a random delay. -/
theorem Happens.reply_after (h : x.Happens)
    (hbefore : x.before.node.state ≠ .acknowledging holder echo)
    (hafter : x.after.node.state = .acknowledging holder echo) :
    ∃ delay ≤ x.before.node.settings.timings.answerJitter,
      x.after.node.timers.reply = .after x.clock.entered delay := by
  obtain ⟨n, hstate, hsettings, henter⟩ := h.enters (hafter ▸ hbefore.symm)
  rw [← hsettings]
  exact ⟨_, n.random.delay_le _, Node.reply_of_enter henter (hstate.trans hafter)⟩

end Moment

/-! ## Looking at what was put aside -/

/-- A listener that has put a message aside does not receive. -/
theorem Station.hear_of_deferred {ρ : Type} [Radio ρ] {s : Station α} {m : Inbound}
    (listening : s.node.state = .listening) (deferred : s.node.deferred = some m) (radio : ρ)
    (now : Timestamp) : s.hear radio now = (none, radio, []) := by
  have work : s.node.hasWork = true := by simp [Node.hasWork, listening, deferred]
  exact hear_of_patience_eq_none (Node.patience_eq_none_iff.2 fun _ _ _ => work) radio

/-- **A listener looks first at the message that was put aside**, and receives nothing meanwhile. -/
theorem Moment.Happens.of_deferred [Application α] {x : Moment α} {m : Inbound} (h : x.Happens)
    (listening : x.before.node.state = .listening) (deferred : x.before.node.deferred = some m)
    (early : x.before.node.timers.watchdog.elapsed x.clock.start = false) :
    x.heard = none ∧
      x.reaction = (x.before.node.awake x.clock.heard).hearAsListener x.before.app m := by
  obtain ⟨ρ, _, radio, radio', events, -, hheard, -⟩ := id h
  rw [Station.hear_of_deferred listening deferred] at hheard
  refine ⟨hheard.symm, h.reaction_of_listening listening early ?_⟩
  rw [Moment.Regards, Node.regards_of_listening listening, deferred]
  rfl

/-! ## Waiting to acknowledge -/

/-- What has become of the station `s` when it has waited to acknowledge a payload and has heard the
messages `heard` meanwhile: the first one is put aside, and the others are counted as dropped. -/
def Station.waiting (s : Station α) (heard : List Inbound) : Station α :=
  { s with node := { s.node with
      deferred := heard.head?
      stats.framesDropped := s.node.stats.framesDropped + (heard.length - 1) } }

/-- The step ends the wait of the station `s`, which has heard the messages `heard` meanwhile: its
answer is due, it acknowledges the payload, and listens. -/
structure Moment.EndsWait (y : Moment α) (s : Station α) (holder : Address) (echo : Bytes)
    (heard : List Inbound) : Prop where
  before : y.before = s.waiting heard
  due : s.node.timers.reply.elapsed y.clock.start = true
  receives : y.heard = none
  said : y.reaction.emission = some (.ack holder echo)
  listens : y.after.node.state = .listening
  view : y.after.node.view = s.node.view
  app : y.after.app = s.app
  deferred : y.after.node.deferred = heard.head?
  dropped : y.after.node.stats.framesDropped = s.node.stats.framesDropped + (heard.length - 1)
  watchdog : y.after.node.timers.watchdog = .after y.clock.entered s.node.settings.timings.watchdog

namespace Station

variable {s : Station α}

theorem waiting_nil (h : s.node.deferred = none) : s.waiting [] = s := by
  obtain ⟨n, app⟩ := s
  unfold waiting
  rw [List.head?_nil, ← h]
  rfl

/-- **Of the messages that come the first one is put aside**, and each of the others is counted. -/
theorem fst_putAside_waiting (heard : List Inbound) (m : Inbound) :
    ((s.waiting heard).node.putAside m).1 = (s.waiting (heard ++ [m])).node := by
  cases heard with
  | nil => rfl
  | cons first rest => simp [waiting, Node.putAside, Nat.add_assoc]

end Station

variable [Application α] {s t : Station α} {run : List (Moment α)} {heard : List Inbound}
  {holder : Address} {echo : Bytes}

/-- **One step of the wait**: it goes on, or the answer is given. -/
theorem Moment.Happens.of_waiting {y : Moment α} (h : y.Happens)
    (hs : s.node.state = .acknowledging holder echo) (hb : y.before = s.waiting heard) :
    (s.node.timers.reply.elapsed y.clock.start = false ∧ y.reaction.emission = none ∧
      y.after = s.waiting (heard ++ y.heard.toList)) ∨ y.EndsWait s holder echo heard := by
  have hstate : y.before.node.state = .acknowledging holder echo := by rw [hb]; exact hs
  have hreply : y.before.node.timers.reply = s.node.timers.reply := by rw [hb]; rfl
  have hr := h.reaction_eq
    (r := y.before.node.acknowledge y.before.app holder echo y.clock.start y.heard)
    (by rw [Node.react, hstate])
  unfold Node.acknowledge at hr
  rw [hreply] at hr
  cases hdue : s.node.timers.reply.elapsed y.clock.start with
  | false =>
    rw [hdue, if_pos Bool.false_ne_true] at hr
    have hput : y.reaction.node = (s.waiting (heard ++ y.heard.toList)).node := by
      rw [hr]
      cases y.heard with
      | none => simp [hb]
      | some m =>
        rw [hb]
        exact Station.fst_putAside_waiting heard m
    have hafter := h.node_after_of_uncredited (.acknowledging holder echo) (by rw [hr])
      (by rw [hr]; rfl) (Or.inl (by rw [hput]; exact hs.symm))
    have happ : y.after.app = s.app := by rw [h.steps.app, hr, hb]; rfl
    refine Or.inl ⟨rfl, by rw [hr], ?_⟩
    show Station.mk y.after.node y.after.app = _
    rw [hafter, hput, happ, ← hs]
    rfl
  | true =>
    rw [hdue, if_neg (not_not_intro rfl)] at hr
    have hlistens : y.after.node.state = .listening := by rw [h.state_after, hr]; rfl
    have hstats := h.stats_after (by rw [hr]; exact List.forall_mem_nil _)
    refine Or.inr ⟨hb, hdue, ?_, by rw [hr], hlistens, ?_, ?_, ?_, ?_, ?_⟩
    · -- An answer that is due comes before any packet.
      refine Option.eq_none_iff_forall_ne_some.2 fun m hm => ?_
      obtain ⟨⟨d, awaited, early⟩, -⟩ := h.polls_of_heard hm
      rw [Node.awaited?, hstate] at awaited
      obtain rfl := Option.some.inj awaited
      rw [hreply, hdue] at early
      exact absurd early.symm Bool.false_ne_true
    · rw [h.view_after (by rw [hr]; rfl), hr, hb]
      rfl
    · rw [h.steps.app, hr, hb]
      rfl
    · rw [h.deferred_after, hr, hb]
      rfl
    · rw [hstats, hr, hb]
      cases y.taken <;> rfl
    · rw [h.watchdog_after (by simp [hstate]) hlistens, hb]
      rfl

namespace Station

/-- **A wait goes on until the answer is due**, and changes nothing else. -/
theorem Run.of_waiting (h : (s.waiting heard).Run run t)
    (hs : s.node.state = .acknowledging holder echo) : ∃ waits late, run = waits ++ late ∧
      (∀ w ∈ waits, s.node.timers.reply.elapsed w.clock.start = false ∧
        w.reaction.emission = none) ∧
      (∀ early, early <+: waits → (s.waiting heard).Run early
        (s.waiting (heard ++ early.filterMap Moment.heard))) ∧
      (late = [] ∨ ∃ y rest, late = y :: rest ∧
        y.EndsWait s holder echo (heard ++ waits.filterMap Moment.heard) ∧ y.after.Run rest t) := by
  induction run generalizing heard with
  | nil =>
    refine ⟨[], [], rfl, List.forall_mem_nil _, fun early hearly => ?_, Or.inl rfl⟩
    rw [List.prefix_nil.1 hearly, List.filterMap_nil, List.append_nil]
    exact .refl
  | cons y run ih =>
    obtain ⟨hb, hy, hrun⟩ := h.of_cons
    rcases hy.of_waiting hs hb with ⟨early, silent, hafter⟩ | ends
    · -- The station still waits, with what it has just heard added to what it had heard.
      rw [hafter] at hrun
      obtain ⟨waits, late, rfl, hwaits, hruns, hlate⟩ := ih hrun
      have hheard (l : List (Moment α)) : heard ++ (y :: l).filterMap Moment.heard =
          heard ++ y.heard.toList ++ l.filterMap Moment.heard := by
        cases hy : y.heard <;> simp [hy]
      refine ⟨y :: waits, late, rfl, List.forall_mem_cons.2 ⟨⟨early, silent⟩, hwaits⟩,
        fun l hl => ?_, ?_⟩
      · rcases List.prefix_cons_iff.1 hl with rfl | ⟨later, rfl, hlater⟩
        · rw [List.filterMap_nil, List.append_nil]
          exact .refl
        · rw [hheard, ← hb]
          exact .cons hy (hafter ▸ hruns later hlater)
      · rw [hheard]
        exact hlate
    · refine ⟨[], y :: run, rfl, List.forall_mem_nil _, fun early hearly => ?_, Or.inr ?_⟩
      · rw [List.prefix_nil.1 hearly, List.filterMap_nil, List.append_nil]
        exact .refl
      · refine ⟨y, run, rfl, ?_, hrun⟩
        rw [List.filterMap_nil, List.append_nil]
        exact ends

end Station

/-- **Every payload is acknowledged once, and the wait for that loses nothing silently.**  A listener
takes up the payload `m` in the step `x`, and says nothing yet: its answer is due after a delay that
is no longer than its settings allow.  However it goes on, it never fails while it waits, says
nothing before the answer is due, and nothing changes but that the first message it hears is put
aside and that each of the others is counted as dropped.  In the first step after that it says the
acknowledgement, to the sender of `m` and with the frame of `m`, and listens.  In the step after it,
if its watchdog has not run out, it handles the message that was put aside. -/
theorem payload_acknowledged_once {x : Moment α} {m : Inbound} (hx : x.Happens)
    (takes : x.takesUp = some m) (h : x.after.Run run t) :
    let due := x.after.node.timers.reply
    x.reaction.emission = none ∧ x.clock.entered ≤ due.moment ∧
    due.moment.millis ≤
      x.clock.entered.millis + x.before.node.settings.timings.answerJitter.wholeMillis ∧
    (∀ heard, (x.after.waiting heard).Proceeds) ∧
    ∃ waits late, run = waits ++ late ∧
      (∀ w ∈ waits, due.elapsed w.clock.start = false ∧ w.reaction.emission = none) ∧
      (∀ early, early <+: waits →
        x.after.Run early (x.after.waiting (early.filterMap Moment.heard))) ∧
      (late = [] ∨ ∃ y rest, late = y :: rest ∧
        y.EndsWait x.after m.sender m.raw (waits.filterMap Moment.heard) ∧
        ∀ z ∈ rest.head?, y.after.node.timers.watchdog.elapsed z.clock.start = false →
          ∀ first ∈ (waits.filterMap Moment.heard).head?, z.heard = none ∧
            z.reaction =
              (z.before.node.awake z.clock.heard).hearAsListener z.before.app first) := by
  obtain ⟨listening, early, regards, htag⟩ := Node.takesUp_eq_some_iff.1 takes
  obtain ⟨hstate, silent⟩ := hx.of_takesUp takes
  obtain ⟨delay, hdelay, hreply⟩ := hx.reply_after (by rw [listening]; nofun) hstate
  have hempty : x.after.node.deferred = none := by
    obtain ⟨body, round, hbody⟩ := Message.exists_isPayload htag
    obtain ⟨last, app, events, hr⟩ := (x.before.node.awake x.clock.heard).hearAsListener_carries
      x.before.app (show m.Carries round from ⟨body, hbody⟩)
    rw [hx.deferred_after, hx.reaction_of_listening listening early regards, hr]
    rfl
  rw [← Station.waiting_nil hempty] at h
  obtain ⟨waits, late, rfl, hwaits, hruns, hlate⟩ := h.of_waiting hstate
  rw [Station.waiting_nil hempty] at hruns
  refine ⟨silent, ?_, ?_, fun heard => ?_, waits, late, rfl, hwaits, hruns, ?_⟩
  · rw [hreply]
    exact Timestamp.le_after _ _
  · rw [hreply]
    exact Nat.le_trans (Deadline.millis_after_le _ _)
      (Nat.add_le_add_left (Duration.wholeMillis_mono hdelay) _)
  · refine Station.proceeds_of_state ?_
    rw [show (x.after.waiting heard).node.state = .acknowledging m.sender m.raw from hstate]
    simp
  · refine hlate.imp id fun ⟨y, rest, hlate, ends, hrest⟩ => ⟨y, rest, hlate, ends, ?_⟩
    intro z hz patient first hfirst
    obtain ⟨rest, rfl⟩ := List.head?_eq_some_iff.1 hz
    obtain ⟨hbefore, hz, -⟩ := hrest.of_cons
    rw [← hbefore] at patient
    exact hz.of_deferred (hbefore ▸ ends.listens) (hbefore ▸ ends.deferred.trans hfirst) patient

/-! ## Node 1 is offered the token while it waits -/

/-- Node 1, which node 2 has let in and which may answer half a second late, takes a payload of
node 2 up.  While it waits, node 3 offers it the token, and node 2 repeats the payload. -/
def hurried? : Option (Station Beacon × List (Moment Beacon) × Station Beacon) := do
  let settings := { Station.settingsOfThree ⟨1⟩ with timings := {} }
  let booted ← (Station.boot settings 0 ({ own := ⟨1⟩ } : Beacon)).toOption
  let s ← booted.toOption
  let p ← s.play? [
    (.zero, []),
    (.zero, [⟨some ⟨2⟩, ⟨1⟩, (Message.joinAck ⟨1⟩ ⟨7⟩ 5 false [⟨1⟩, ⟨2⟩]).encode⟩]),
    (.zero, [⟨some ⟨2⟩, .everyone, (Message.data 6 [5]).encode⟩]),
    (.ofMillis 100, [⟨some ⟨3⟩, .everyone, (Message.turn ⟨1⟩ ⟨7⟩ 9).encode⟩]),
    (.ofMillis 200, []),
    (.ofMillis 300, [⟨some ⟨2⟩, .everyone, (Message.retry 6 [5]).encode⟩]),
    (.ofMillis 500, []), (.ofMillis 500, [])]
  return (s, p)

theorem isSome_hurried? : hurried?.isSome = true := by decide +kernel

/-- Node 1 when it is switched on, what it does, and what it is after that. -/
def hurried : Station Beacon × List (Moment Beacon) × Station Beacon :=
  hurried?.get isSome_hurried?

theorem run_hurried : hurried.1.Run hurried.2.1 hurried.2.2 := by
  have h : hurried? = some hurried := (Option.some_get isSome_hurried?).symm
  simp only [hurried?, bind, Option.bind_eq_some_iff, pure, Option.some.injEq] at h
  obtain ⟨booted, -, s, -, p, hp, he⟩ := h
  rw [← he]
  exact Station.run_of_play? hp

theorem two_lt_length_hurried : 2 < hurried.2.1.length := by decide +kernel

/-- The step in which node 1 takes the payload up. -/
def hurriedTake : Moment Beacon := hurried.2.1.get ⟨2, two_lt_length_hurried⟩

/-- The payload of node 2, as it is heard. -/
def hurriedPayload : Inbound :=
  ⟨⟨2⟩, .everyone, .data 6 [5], (Message.data 6 [5]).encode⟩

theorem hurried_ends : hurriedTake.takesUp = some hurriedPayload ∧
    hurried.2.2.node.state = .accepting ⟨3⟩ (Message.turn ⟨1⟩ ⟨7⟩ 9).encode ∧
    hurried.2.2.node.stats.framesDropped = 1 := by
  decide +kernel

/-- **Node 1 acknowledges the payload half a second later**, and then takes the token that node 3
has offered it meanwhile; the payload that was repeated is dropped. -/
theorem payload_acknowledged_once_of_hurried : hurriedTake.takesUp = some hurriedPayload ∧
    (∃ waits y rest, hurried.2.1.drop 3 = waits ++ y :: rest ∧
      y.EndsWait hurriedTake.after ⟨2⟩ hurriedPayload.raw (waits.filterMap Moment.heard)) ∧
    hurried.2.2.node.state = .accepting ⟨3⟩ (Message.turn ⟨1⟩ ⟨7⟩ 9).encode ∧
    hurried.2.2.node.stats.framesDropped = 1 := by
  obtain ⟨takes, state, dropped⟩ := hurried_ends
  have hrun := run_hurried
  rw [Station.eq_take_append_get hurried.2.1 ⟨2, two_lt_length_hurried⟩] at hrun
  obtain ⟨-, happens, hlate⟩ := hrun.of_middle
  obtain ⟨-, -, -, -, waits, late, hsplit, hwaits, -, hends⟩ :=
    payload_acknowledged_once happens takes hlate
  refine ⟨takes, ?_, state, dropped⟩
  rcases hends with rfl | ⟨y, rest, rfl, ends, -⟩
  · -- The answer is due in the fourth step of the wait.
    rw [List.append_nil] at hsplit
    rw [← hsplit] at hwaits
    exact absurd hwaits (by decide +kernel)
  · exact ⟨waits, y, rest, hsplit, ends⟩

end RadioRing
