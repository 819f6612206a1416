import RadioRing.Proofs.Refusals

/-!
# Proofs/Calls — what a step asks of its radio

A `Watched` radio is any radio, with a record of the calls that were made to it.  **Watching changes
nothing** (`Station.step_watched`), so the record tells what a step asks of the radio itself: at most
one packet, and after that at most one frame.  How long it may wait for the packet follows from the
timers that the state of the node waits for, `Node.Awaits`: **it never sleeps past any of them**
(`Node.timely_of_patience`).
-/

namespace RadioRing

/-! ## A radio that is watched -/

/-- A radio, and the calls made to it since it is watched, the first one first. -/
structure Watched (ρ : Type) where
  radio : ρ
  calls : List Call := []

/-- The call that a send was, by the answer to it. -/
def Call.ofSend (dest : Address) (frame : Bytes) : Except RadioError Unit → Call
  | .ok () => .sent dest frame
  | .error _ => .refused dest frame

instance {ρ : Type} [Radio ρ] : Radio (Watched ρ) where
  capacity w := Radio.capacity w.radio
  reportsSender w := Radio.reportsSender w.radio
  send w dest frame :=
    let (answer, radio) := Radio.send w.radio dest frame
    (answer, ⟨radio, w.calls ++ [.ofSend dest frame answer]⟩)
  receive w timeout :=
    let (packet, radio) := Radio.receive w.radio timeout
    (packet, ⟨radio, w.calls ++ [.received timeout]⟩)
  awaitSent w most := ⟨Radio.awaitSent w.radio most, w.calls ++ [.waited most]⟩
  listen w := ⟨Radio.listen w.radio, w.calls ++ [.listened]⟩

/-! ## The calls of a link -/

namespace Link

variable {ρ : Type} [Radio ρ]

/-- The calls by which a link sends a message: none if its frame does not fit, one if the radio
refuses it, and else three, since a frame that was taken is waited for. -/
def sendCalls (l : Link) (radio : ρ) (dest : Address) (m : Message) : List Call :=
  match l.frame (Radio.reportsSender radio) (Radio.capacity radio) m with
  | .error _ => []
  | .ok frame =>
    match (Radio.send radio dest frame).1 with
    | .error _ => [.refused dest frame]
    | .ok () => [.sent dest frame, .waited l.sendComplete, .listened]

/-- **To be watched changes nothing about a send**, and all its calls are noted. -/
theorem send_watched (l : Link) (w : Watched ρ) (dest : Address) (m : Message) :
    l.send w dest m = ((l.send w.radio dest m).1,
      ⟨(l.send w.radio dest m).2.1, w.calls ++ l.sendCalls w.radio dest m⟩,
      (l.send w.radio dest m).2.2) := by
  unfold send sendCalls
  change (match l.frame (Radio.reportsSender w.radio) (Radio.capacity w.radio) m with
    | .error e => _
    | .ok frame => _) = _
  cases l.frame (Radio.reportsSender w.radio) (Radio.capacity w.radio) m with
  | error e => simp
  | ok frame =>
    dsimp only [Radio.send]
    rcases Radio.send w.radio dest frame with ⟨answer, radio⟩
    cases answer with
    | error e => rfl
    | ok _ => simp [Call.ofSend, Radio.listen, Radio.awaitSent]

/-- To be watched changes nothing about a poll, and its one call is noted. -/
theorem await_watched (l : Link) (w : Watched ρ) (timeout : Duration) :
    l.await w timeout = ((l.await w.radio timeout).1,
      ⟨(l.await w.radio timeout).2.1, w.calls ++ [.received timeout]⟩,
      (l.await w.radio timeout).2.2) := by
  unfold await
  dsimp only [Radio.receive]
  rcases Radio.receive w.radio timeout with ⟨packet, radio⟩
  cases packet <;> rfl

end Link

namespace Station

variable {α ρ : Type} [Radio ρ]

/-- The calls by which a step listens: one, if it has any patience. -/
def hearCalls (s : Station α) (now : Timestamp) : List Call :=
  ((s.node.patience now).map .received).toList

/-- The calls by which the frame of a reaction is sent. -/
def emitCalls (l : Link) (radio : ρ) : Option Emission → List Call
  | none => []
  | some e => l.sendCalls radio e.dest e.message

/-- **A step sends at most one frame.** -/
theorem emitCalls_cases (l : Link) (radio : ρ) (e : Option Emission) : emitCalls l radio e = [] ∨
    (∃ dest frame, emitCalls l radio e = [.refused dest frame]) ∨
    ∃ dest frame, emitCalls l radio e = [.sent dest frame, .waited l.sendComplete, .listened] := by
  cases e with
  | none => exact Or.inl rfl
  | some e =>
    unfold emitCalls Link.sendCalls
    dsimp only
    split
    · exact Or.inl rfl
    · split
      · exact Or.inr (Or.inl ⟨_, _, rfl⟩)
      · exact Or.inr (Or.inr ⟨_, _, rfl⟩)

theorem hear_watched (s : Station α) (w : Watched ρ) (now : Timestamp) :
    s.hear w now = ((s.hear w.radio now).1,
      ⟨(s.hear w.radio now).2.1, w.calls ++ s.hearCalls now⟩, (s.hear w.radio now).2.2) := by
  rw [hear_eq, hear_eq, hearCalls]
  cases s.node.patience now with
  | none => simp
  | some timeout => exact s.node.link.await_watched w timeout

theorem emit_watched (l : Link) (w : Watched ρ) (e : Option Emission) :
    emit l w e = ((emit l w.radio e).1,
      ⟨(emit l w.radio e).2.1, w.calls ++ emitCalls l w.radio e⟩, (emit l w.radio e).2.2) := by
  cases e with
  | none => simp [emit, emitCalls]
  | some e => exact l.send_watched w e.dest e.message

variable [Application α]

/-- The calls by which a step sends what its reaction to what it heard asks to send. -/
def reactCalls (s : Station α) (radio : ρ) (clock : Readings) : List Call :=
  match s.node.react s.app clock (s.hear radio clock.start).1 with
  | .error _ => []
  | .ok r => emitCalls s.node.link (s.hear radio clock.start).2.1 r.emission

/-- **Watching a radio changes nothing**, and the record of a step says what the step asked for. -/
theorem step_watched (s : Station α) (w : Watched ρ) (clock : Readings) :
    s.step w clock = (s.step w.radio clock).map fun p =>
      (p.1, ⟨p.2.1, w.calls ++ (s.hearCalls clock.start ++ s.reactCalls w.radio clock)⟩, p.2.2) := by
  have hears := s.hear_watched w clock.start
  have heard : (s.hear w clock.start).1 = (s.hear w.radio clock.start).1 := by rw [hears]
  unfold reactCalls
  cases hreact : s.node.react s.app clock (s.hear w.radio clock.start).1 with
  | error e =>
    rw [step_of_react_error hreact, step_of_react_error (heard ▸ hreact)]
    rfl
  | ok r =>
    rw [step_of_react hreact, step_of_react (heard ▸ hreact), hears, emit_watched]
    dsimp only
    cases r.finish (emit s.node.link (s.hear w.radio clock.start).2.1 r.emission).1
        clock.entered with
    | error e => rfl
    | ok p => simp [bind, Except.bind, Except.map]

end Station

/-! ## How long a step may listen -/

namespace Node

variable {n : Node} {now : Timestamp} {timeout : Duration} {d d' : Deadline}

/-- The timers that the state of a node waits for. -/
inductive Awaits (n : Node) : Deadline → Prop
  | admission (state : n.state = .awaitingAdmission) : Awaits n n.timers.joinResend
  | reply (state : n.state.isReplying = true) : Awaits n n.timers.reply
  | network (state : n.state = .alone) : Awaits n n.timers.rescan
  | ring (state : n.state = .listening) : Awaits n n.timers.watchdog
  | repetition (state : n.state = .awaitingEcho) : Awaits n n.timers.retry
  | endOfTurn (state : n.state = .awaitingEcho) : Awaits n n.timers.turn
  | taker {taker : Address} (state : n.state = .awaitingTaker taker) :
      Awaits n n.timers.offerRetry

/-- The node has something to wait for, it is not yet time for it, and a listener has no message put
aside to look at instead. -/
structure Polls (n : Node) (now : Timestamp) : Prop where
  waits : ∃ d, n.Awaits d
  early : ∀ d, n.Awaits d → d.elapsed now = false
  idle : n.state = .listening → n.deferred = none

/-- To listen that long is no longer than a poll, and ends before or with everything that the node
waits for. -/
structure Timely (n : Node) (now : Timestamp) (timeout : Duration) : Prop where
  poll : timeout ≤ n.settings.timings.poll
  ends : ∀ d, n.Awaits d → now.millis * 1000000 + timeout.nanos ≤ d.moment.millis * 1000000

theorem awaits_of_awaited? (h : n.awaited? = some d) : n.Awaits d := by
  unfold awaited? at h
  split at h
  case h_1 state => exact Option.some.inj h ▸ .admission state
  case h_2 state => exact Option.some.inj h ▸ .reply (by rw [state]; rfl)
  case h_3 state => exact Option.some.inj h ▸ .reply (by rw [state]; rfl)
  case h_4 state => exact Option.some.inj h ▸ .network state
  case h_5 state => exact Option.some.inj h ▸ .ring state
  case h_6 state =>
    obtain rfl := Option.some.inj h
    unfold Deadline.earlier
    split
    · exact .repetition state
    · exact .endOfTurn state
  case h_7 state => exact Option.some.inj h ▸ .taker state
  all_goals exact absurd h nofun

/-- **The deadline of a state is the earliest of its timers.** -/
theorem Awaits.exists_le (h : n.Awaits d) :
    ∃ d' ∈ n.awaited?, d'.moment.millis ≤ d.moment.millis := by
  have only (h : n.awaited? = some d) : ∃ d' ∈ n.awaited?, d'.moment.millis ≤ d.moment.millis :=
    ⟨d, h, Nat.le_refl _⟩
  have both (state : n.state = .awaitingEcho) :
      n.awaited? = some (n.timers.retry.earlier n.timers.turn) := by rw [awaited?, state]
  cases h with
  | admission state | network state | ring state | taker state =>
    exact only (by rw [awaited?, state])
  | reply state =>
    refine only ?_
    cases hs : n.state <;> rw [hs] at state <;> first
      | exact absurd state Bool.false_ne_true
      | rw [awaited?, hs]
  | repetition state =>
    refine ⟨_, both state, ?_⟩
    unfold Deadline.earlier
    split
    · exact Nat.le_refl _
    · rename_i later
      exact Nat.le_of_lt (Nat.not_le.1 later)
  | endOfTurn state =>
    refine ⟨_, both state, ?_⟩
    unfold Deadline.earlier
    split
    · rename_i sooner
      exact sooner
    · exact Nat.le_refl _

/-- The deadline that a node polls until comes no later than any that it waits for. -/
theorem le_of_awaited? (h : n.awaited? = some d) (awaits : n.Awaits d') :
    d.moment.millis ≤ d'.moment.millis := by
  obtain ⟨first, hfirst, le⟩ := awaits.exists_le
  obtain rfl := Option.some.inj (h.symm.trans hfirst)
  exact le

/-- A node has work exactly if it listens and has put a message aside. -/
theorem hasWork_eq_false_iff :
    n.hasWork = false ↔ (n.state = .listening → n.deferred = none) := by
  simp [hasWork]

/-- **A step listens exactly if its node polls.** -/
theorem polls_iff : n.Polls now ↔ (n.patience now).isSome = true := by
  rw [isSome_patience_iff]
  constructor
  · rintro ⟨⟨d, awaits⟩, early, idle⟩
    obtain ⟨first, hfirst, -⟩ := awaits.exists_le
    exact ⟨first, hfirst, early first (awaits_of_awaited? hfirst), hasWork_eq_false_iff.2 idle⟩
  · rintro ⟨d, awaited, early, idle⟩
    refine ⟨⟨d, awaits_of_awaited? awaited⟩, fun d' awaits => ?_, hasWork_eq_false_iff.1 idle⟩
    rw [Deadline.elapsed_eq_false_iff] at early ⊢
    exact Nat.lt_of_lt_of_le early (le_of_awaited? awaited awaits)

/-- **A step never sleeps past a timer of its state.** -/
theorem timely_of_patience (h : n.patience now = some timeout) : n.Timely now timeout := by
  obtain ⟨d, awaited, early, -, rfl⟩ := patience_eq_some_iff.1 h
  rw [Deadline.elapsed_eq_false_iff] at early
  constructor
  · rw [Duration.le_iff, Duration.nanos_shorter]
    exact Nat.min_le_right _ _
  · intro d' awaits
    have le := le_of_awaited? awaited awaits
    rw [Duration.nanos_shorter, Deadline.remaining, Timestamp.since, Duration.nanos_ofMillis]
    omega

end Node

/-- **One step is bounded work.**  On any radio, a step of a station asks at most once for a packet,
and after that sends at most one frame, which is waited for if the radio has taken it.  It asks for a
packet exactly if its node polls: the state waits for some timer, none of these has elapsed, and
a listener has nothing put aside.  It then waits no longer than a poll, and not past any timer that
the state waits for. -/
theorem step_bounded {α ρ : Type} [Application α] [Radio ρ] (s : Station α) (radio : ρ)
    (clock : Readings) : ∃ received sent : List Call,
      (s.step ({ radio } : Watched ρ) clock = (s.step radio clock).map fun p =>
        (p.1, ⟨p.2.1, received ++ sent⟩, p.2.2)) ∧
      (received = [] ∧ ¬s.node.Polls clock.start ∨
        ∃ timeout, received = [.received timeout] ∧ s.node.Polls clock.start ∧
          s.node.Timely clock.start timeout) ∧
      (sent = [] ∨ (∃ dest frame, sent = [.refused dest frame]) ∨
        ∃ dest frame, sent =
          [.sent dest frame, .waited s.node.settings.timings.sendComplete, .listened]) := by
  refine ⟨s.hearCalls clock.start, s.reactCalls radio clock, s.step_watched _ clock, ?_, ?_⟩
  · unfold Station.hearCalls
    cases polls : s.node.patience clock.start with
    | none =>
      refine Or.inl ⟨rfl, fun h => ?_⟩
      rw [Node.polls_iff, polls] at h
      exact absurd h nofun
    | some timeout =>
      refine Or.inr ⟨timeout, rfl, Node.polls_iff.2 ?_, Node.timely_of_patience polls⟩
      rw [polls]
      rfl
  · unfold Station.reactCalls
    split
    · exact Or.inl rfl
    · exact Station.emitCalls_cases ..

/-- A holder that hears an offer to itself listens once, and once acknowledges it. -/
example : let offer := (Message.turn ⟨1⟩ ⟨7⟩ 6).encode
    let radio : ScriptedRadio := { inbox := [⟨some ⟨2⟩, .everyone, offer⟩] }
    ((Station.holder? ⟨1⟩ ⟨2⟩ 5 [⟨1⟩, ⟨2⟩]).bind fun s =>
      (s.step ({ radio } : Watched ScriptedRadio) (.still .zero)).toOption).map (·.2.1.calls) =
    some [.received (.ofMillis 200), .sent ⟨2⟩ (Message.ack offer).encode,
      .waited (.ofSeconds 1), .listened] := by
  decide +kernel

end RadioRing
