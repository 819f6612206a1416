import RadioRing.Proofs.Belonging
import RadioRing.Proofs.ClockOrder
import RadioRing.Proofs.Eviction

/-!
# Proofs/Requests — how long a node asks to be admitted

A node that nobody answers asks again when its wait is over, until it has no request left
(`Node.requestsLeft`), and then founds a network.  Whatever else it hears, each step sends a request
and waits for the answer, waits on, or ends the wait, so **the requests of a run are those that were
left** (`Station.Run.requests`), and every one of them comes after the wait for the one before it.  A
node has as many as its settings say, and one more, whenever it begins to ask
(`unanswered_node_founds_network`).
-/

namespace RadioRing

/-- A longer wait does not end earlier. -/
theorem Timestamp.after_mono (t : Timestamp) {a b : Duration} (h : a ≤ b) :
    t.after a ≤ t.after b := by
  have := Duration.wholeMillis_mono h
  rw [le_iff, millis_after, millis_after]
  omega

/-- The states of a node that asks to be admitted. -/
def State.isAsking : State → Bool
  | requesting | awaitingAdmission => true
  | _ => false

/-- Whom a message lets in. -/
def Message.admitted? : Message → Option Address
  | joinAck target _ _ _ _ => some target
  | _ => none

/-- How many requests a node that asks to be admitted may still send. -/
def Node.requestsLeft (n : Node) : Nat :=
  n.settings.joinRetryLimit.toNat - n.joinRetries + if n.state = .requesting then 1 else 0

/-- The node is alone in a network that it has just founded. -/
structure Node.Founded (n : Node) : Prop where
  state : n.state = .alone
  session : ∃ session, n.session = some session ∧ session.word ≠ 0
  eligible : n.table.isEligible n.own = true
  rounds : n.rounds = {}
  presumedHolder : n.presumedHolder = none
  master : n.master = false

/-- **A node that leaves its network has all its requests left**, and so has one that is about to ask
for any reason but that nobody has answered. -/
theorem Node.Acts.joinRetries_eq_zero {n n' : Node} {clock : Readings} {heard : Option Inbound}
    {e : Option Emission} {t : Transition} (h : n.Acts clock heard n' e t)
    (ht : t.next = .requesting) (hs : n.state ≠ .awaitingAdmission) : n'.joinRetries = 0 := by
  cases h with
  | asksAgain state | joins state => exact absurd state hs
  | waitsToReply state | idles state =>
    rw [Transition.next_goTo] at ht
    rw [ht] at state
    exact absurd state nofun
  | rescans | strays => rfl
  | hearsListening _ _ _ makes =>
    cases makes with
    | calledAway => rfl
    | _ => exact absurd ht nofun
  | hearsAlone _ _ _ makes =>
    cases makes with
    | rejoins => rfl
    | _ => exact absurd ht nofun
  | hearsHolding _ _ _ _ makes => cases makes <;> exact absurd ht nofun
  | hearsGiving _ _ _ makes => cases makes <;> exact absurd ht nofun
  | _ => exact absurd ht nofun

variable {α : Type}

namespace Moment

/-- The step hears an answer to the request of its node. -/
def HearsAnswer (x : Moment α) : Prop :=
  x.heard.bind (·.message.admitted?) = some x.before.node.own

instance (x : Moment α) : Decidable x.HearsAnswer := inferInstanceAs (Decidable (_ = _))

/-- What is asked for in a run is asked for in one of its steps. -/
theorem exists_of_mem_attempts {run : List (Moment α)} {a : Timestamp × Emission}
    (h : a ∈ attempts run) : ∃ x ∈ run, x.clock.start = a.1 := by
  obtain ⟨x, hx, ha⟩ := List.mem_filterMap.1 h
  obtain ⟨e, -, rfl⟩ := Option.map_eq_some_iff.1 ha
  exact ⟨x, hx, rfl⟩

variable [Application α] {x : Moment α}

/-- **A node that asks sends its request**, and waits for an answer no shorter than its settings
say. -/
theorem Happens.of_requesting (h : x.Happens) (hs : x.before.node.state = .requesting) :
    x.attempt? = some (x.clock.start, .toAll (.joinRequest x.before.node.own)) ∧
    x.after.node.state = .awaitingAdmission ∧
    x.after.node.joinRetries = x.before.node.joinRetries ∧
    ∃ wait, x.before.node.settings.timings.joinResend ≤ wait ∧
      x.after.node.timers.joinResend = .after x.clock.start wait := by
  have hreact := h.steps.reacts
  unfold Node.react Node.request at hreact
  rw [hs] at hreact
  obtain ⟨random, hj⟩ := x.before.node.snd_jitter x.before.node.settings.timings.answerJitter
  simp only [hj] at hreact
  split at hreact
  · exact absurd hreact nofun
  · rename_i wait hwait
    have hr := (Except.ok.inj hreact).symm
    have hle : x.before.node.settings.timings.joinResend ≤ wait := by
      rw [Duration.le_iff, Duration.add?_eq_some_iff.1 hwait]
      exact Nat.le_add_right _ _
    have hafter := h.node_after_of_uncredited .awaitingAdmission (by rw [hr]) (by rw [hr]; rfl)
      (Or.inr rfl)
    rw [hafter, attempt?, hr]
    exact ⟨rfl, rfl, rfl, wait, hle, rfl⟩

/-- **A node that waits for an answer and hears none** waits on, or its wait is over: then it asks
again if it has a request left, and founds a network if not. -/
theorem Happens.of_awaitingAdmission (h : x.Happens)
    (hs : x.before.node.state = .awaitingAdmission) (unanswered : ¬x.HearsAnswer) :
    x.attempt? = none ∧ (x.after.node = x.before.node ∨
      x.before.node.timers.joinResend.moment ≤ x.clock.start ∧
        (x.before.node.joinRetries < x.before.node.settings.joinRetryLimit.toNat ∧
          x.after.node.state = .requesting ∧
          x.after.node.joinRetries = x.before.node.joinRetries + 1 ∨
        x.before.node.settings.joinRetryLimit.toNat ≤ x.before.node.joinRetries ∧
          x.after.node.state = .founding)) := by
  have hr := h.reaction_eq
    (r := x.before.node.awaitAdmission x.before.app x.clock.start x.heard) (by rw [Node.react, hs])
  have hgoes {next : State} (quiet : x.reaction.emission = none)
      (ht : x.reaction.transition = .goTo next) (unarmed : next.armed = []) :
      x.attempt? = none ∧ x.after.node = { x.reaction.node with state := next } :=
    ⟨by rw [attempt?, quiet]; rfl, h.node_after_of_uncredited next ht
      (by rw [Reaction.credit, quiet]) (Or.inr unarmed)⟩
  have idles (hidle : x.reaction = { node := x.before.node, app := x.before.app
                                     transition := .goTo .awaitingAdmission }) :
      x.attempt? = none ∧ x.after.node = x.before.node := by
    obtain ⟨quiet, hafter⟩ := hgoes (by rw [hidle]) (by rw [hidle]) rfl
    refine ⟨quiet, hafter.trans ?_⟩
    rw [hidle, ← hs]
  unfold Node.awaitAdmission at hr
  cases hdue : x.before.node.timers.joinResend.elapsed x.clock.start with
  | true =>
    have late : x.before.node.timers.joinResend.moment ≤ x.clock.start := of_decide_eq_true hdue
    rw [hdue, if_pos rfl] at hr
    by_cases hspent : x.before.node.settings.joinRetryLimit.toNat ≤ x.before.node.joinRetries
    · rw [if_pos hspent] at hr
      obtain ⟨quiet, hafter⟩ := hgoes (by rw [hr]) (by rw [hr]) rfl
      exact ⟨quiet, Or.inr ⟨late, Or.inr ⟨hspent, by rw [hafter]⟩⟩⟩
    · rw [if_neg hspent] at hr
      obtain ⟨quiet, hafter⟩ := hgoes (by rw [hr]) (by rw [hr]) rfl
      refine ⟨quiet, Or.inr ⟨late, Or.inl ⟨Nat.not_le.1 hspent, by rw [hafter], ?_⟩⟩⟩
      rw [hafter, hr]
  | false =>
    rw [hdue, if_neg Bool.false_ne_true] at hr
    refine (idles ?_).imp id Or.inl
    split at hr
    · rename_i sender dest target session round handsOver members raw hheard
      split at hr
      · exact hr
      · rename_i htarget
        rw [ne_eq, Decidable.not_not] at htarget
        refine absurd ?_ unanswered
        rw [HearsAnswer, hheard, Option.bind_some, ← htarget]
        rfl
    · exact hr

end Moment

namespace Station

variable [Application α] {s t : Station α} {run : List (Moment α)}

/-- The station begins to ask for admission: it has just been switched on, or has just left its
network. -/
def BeginsToAsk (s : Station α) : Prop :=
  s.Booted ∨ ∃ x : Moment α, x.before.Reachable ∧ x.Happens ∧ x.after = s ∧
    s.node.state = .requesting ∧ x.before.node.state ≠ .awaitingAdmission

theorem BeginsToAsk.reachable (h : s.BeginsToAsk) : s.Reachable := by
  rcases h with boot | ⟨x, hs, hx, rfl, -⟩
  · exact boot.reachable
  · exact hs.moment hx

/-- **A node that begins to ask has as many requests as its settings say, and one more.** -/
theorem BeginsToAsk.requestsLeft_eq (h : s.BeginsToAsk) :
    s.node.requestsLeft = s.node.settings.joinRetryLimit.toNat + 1 := by
  rcases h with boot | ⟨x, -, hx, rfl, hs, hbefore⟩
  · obtain ⟨settings, random, -, hn⟩ := boot.node_eq
    rw [hn]
    rfl
  · have hretries : x.after.node.joinRetries = 0 := by
      obtain ⟨timers, random, e, a, hn⟩ := hx.node_after
      rw [hn]
      exact hx.acts.joinRetries_eq_zero (hx.state_after ▸ hs) hbefore
    rw [Node.requestsLeft, hretries, if_pos hs, Nat.sub_zero]

/-- **Who is not answered sends the requests that it has left**, and then founds a network. -/
theorem Run.requests (h : s.Run run t) (hs : s.node.state.isAsking = true)
    (asking : ∀ x ∈ run, x.before.node.state.isAsking = true)
    (ends : t.node.state.isAsking = false) (unanswered : ∀ x ∈ run, ¬x.HearsAnswer) :
    (attempts run).map Prod.snd =
      List.replicate s.node.requestsLeft (.toAll (.joinRequest s.node.own)) ∧
    t.node.state = .founding := by
  -- The requests left fall by one with each that is sent, and are none when the node founds.
  induction run generalizing s with
  | nil =>
    rw [h.eq_of_nil, hs] at ends
    exact absurd ends nofun
  | cons x run ih =>
    obtain ⟨rfl, hx, hrun⟩ := h.of_cons
    obtain ⟨-, hasking⟩ := List.forall_mem_cons.1 asking
    obtain ⟨hsilent, hunanswered⟩ := List.forall_mem_cons.1 unanswered
    have hlimit : x.after.node.settings.joinRetryLimit = x.before.node.settings.joinRetryLimit :=
      congrArg Settings.joinRetryLimit hx.settings_after
    cases hstate : x.before.node.state with
    | requesting =>
      obtain ⟨attempt, hafter, hretries, -⟩ := hx.of_requesting hstate
      obtain ⟨said, founding⟩ := ih hrun (by rw [hafter]; rfl) hasking hunanswered
      refine ⟨?_, founding⟩
      rw [attempts_cons_of_some attempt, List.map_cons, said, hx.own_after]
      simp [Node.requestsLeft, hstate, hafter, hretries, hlimit, List.replicate_succ]
    | awaitingAdmission =>
      obtain ⟨quiet, hafter | ⟨-, ⟨hleft, hafter, hretries⟩ | ⟨hspent, hafter⟩⟩⟩ :=
        hx.of_awaitingAdmission hstate hsilent
      · have hsame := ih hrun (hafter ▸ hs) hasking hunanswered
        rw [hafter] at hsame
        rw [attempts_cons_of_none quiet]
        exact hsame
      · obtain ⟨said, founding⟩ := ih hrun (by rw [hafter]; rfl) hasking hunanswered
        refine ⟨?_, founding⟩
        rw [attempts_cons_of_none quiet, said, hx.own_after]
        congr 1
        simp only [Node.requestsLeft, hstate, hafter, hretries, hlimit, reduceCtorEq, if_true,
          if_false]
        omega
      · -- A founder does not ask any more.
        cases run with
        | cons y run =>
          obtain ⟨hy, -, -⟩ := hrun.of_cons
          have hnext := hasking y List.mem_cons_self
          rw [hy, hafter] at hnext
          exact absurd hnext nofun
        | nil =>
          obtain rfl := hrun.eq_of_nil
          refine ⟨?_, hafter⟩
          rw [attempts_cons_of_none quiet, Node.requestsLeft, if_neg (by rw [hstate]; nofun),
            Nat.sub_eq_zero_of_le hspent]
          rfl
    | _ =>
      rw [hstate] at hs
      exact absurd hs nofun

/-- **Two requests are a wait apart**, and a node that waits for an answer sends none before its wait
is over. -/
theorem Run.requests_apart (h : s.Run run t)
    (asking : ∀ x ∈ run, x.before.node.state.isAsking = true)
    (unanswered : ∀ x ∈ run, ¬x.HearsAnswer)
    (ordered : run.Pairwise fun x y => x.clock.start ≤ y.clock.start) :
    ((attempts run).Pairwise fun a b => a.1.Apart s.node.settings.timings.joinResend b.1) ∧
    (s.node.state = .awaitingAdmission →
      ∀ a ∈ attempts run, s.node.timers.joinResend.moment ≤ a.1) := by
  -- The second part carries the first: the timer stands where the last request has set it.
  induction run generalizing s with
  | nil => exact ⟨List.Pairwise.nil, fun _ => List.forall_mem_nil _⟩
  | cons x run ih =>
    obtain ⟨rfl, hx, hrun⟩ := h.of_cons
    obtain ⟨hs, hasking⟩ := List.forall_mem_cons.1 asking
    obtain ⟨hsilent, hunanswered⟩ := List.forall_mem_cons.1 unanswered
    obtain ⟨hlater, hordered⟩ := List.pairwise_cons.1 ordered
    obtain ⟨apart, after⟩ := ih hrun hasking hunanswered hordered
    rw [hx.settings_after] at apart
    cases hstate : x.before.node.state with
    | requesting =>
      obtain ⟨attempt, hafter, -, wait, hwait, htimer⟩ := hx.of_requesting hstate
      rw [attempts_cons_of_some attempt]
      refine ⟨List.pairwise_cons.2 ⟨fun a ha => .of_elapsed ?_, apart⟩, nofun⟩
      have hdue := after hafter a ha
      rw [htimer] at hdue
      exact Nat.le_trans (Timestamp.after_mono _ hwait) hdue
    | awaitingAdmission =>
      obtain ⟨quiet, hafter | ⟨late, -⟩⟩ := hx.of_awaitingAdmission hstate hsilent
      · rw [hafter] at after
        rw [attempts_cons_of_none quiet]
        exact ⟨apart, fun _ => after hstate⟩
      · rw [attempts_cons_of_none quiet]
        refine ⟨apart, fun _ a ha => ?_⟩
        obtain ⟨y, hy, hstart⟩ := Moment.exists_of_mem_attempts ha
        exact Nat.le_trans late (hstart ▸ hlater y hy)
    | _ =>
      rw [hstate] at hs
      exact absurd hs nofun

/-- **A founder is alone in its network**, unless the time that it would wait there cannot be told;
it asks nothing of its radio. -/
theorem Reachable.founds (h : t.Reachable) (hs : t.node.state = .founding)
    (told : ¬t.node.Overflows .rescanWait) {ρ : Type} [Radio ρ] (radio : ρ) (clock : Readings) :
    ∃ u events, t.step radio clock = .ok (u, radio, events) ∧ u.node.Founded := by
  cases hstep : t.step radio clock with
  | error e =>
    have hoverflow := h.step_eq_error_iff.1 hstep
    cases e with
    | turnCycle => exact hoverflow.elim
    | joinWait =>
      have hrequesting := hoverflow.1
      rw [hs] at hrequesting
      exact absurd hrequesting nofun
    | rescanWait => exact absurd hoverflow told
  | ok p =>
    obtain ⟨u, radio', events⟩ := p
    obtain ⟨r, hr, hradio⟩ := step_eq_ok hstep
    have hfound := Except.ok.inj (hr.reacts.symm.trans (react_of_founding hs))
    have hear : t.hear radio clock.start = (none, radio, []) :=
      hear_of_patience_eq_none (Node.patience_eq_none_iff.2 (by simp [Node.awaited?, hs])) radio
    rw [hear, hfound] at hradio
    have hreachable : u.Reachable := .step h hstep
    obtain ⟨timers, random, evictions, admissions, hn, -⟩ := hr.node_eq
    have hsession : u.node.session = some (Session.ofWord t.node.random.next.1) := by
      rw [hn, hfound]
      rfl
    refine ⟨u, events, by rw [hradio]; rfl, ?_, ⟨_, hsession, Session.ofWord_ne_zero _⟩,
      hreachable.isEligible_own (by rw [hsession]; rfl), ?_, ?_, ?_⟩
    all_goals
      rw [hn, hfound]
      rfl

end Station

/-- **A node that nobody answers founds a network.**  A node has been switched on or has left its
network, and takes steps at whatever times until it does not ask to be admitted any more; it may hear
anything but an answer to its request, and its radio may refuse what it likes.  What it has asked to
send are its requests, as many as its settings say and one more, and, if its clock never goes back,
any two of them are a wait apart, unless the clock ends before that.  Then it is about to found a
network, and its next step, unless its wait there cannot be told, asks nothing of the radio and
leaves it alone in a network with a name, takes turns itself, and knows of no round, no holder and no
token. -/
theorem unanswered_node_founds_network [Application α] {s t : Station α} {run : List (Moment α)}
    (start : s.BeginsToAsk) (h : s.Run run t)
    (asking : ∀ x ∈ run, x.before.node.state.isAsking = true)
    (ends : t.node.state.isAsking = false) (unanswered : ∀ x ∈ run, ¬x.HearsAnswer) :
    (attempts run).map Prod.snd = List.replicate (s.node.settings.joinRetryLimit.toNat + 1)
      (.toAll (.joinRequest s.node.own)) ∧
    ((run.Pairwise fun x y => x.clock.start ≤ y.clock.start) →
      (attempts run).Pairwise fun a b => a.1.Apart s.node.settings.timings.joinResend b.1) ∧
    t.node.state = .founding ∧
    ∀ {ρ : Type} [Radio ρ] (radio : ρ) (clock : Readings), ¬t.node.Overflows .rescanWait →
      ∃ u events, t.step radio clock = .ok (u, radio, events) ∧ u.node.Founded := by
  have hs : s.node.state.isAsking = true := by
    rcases start with boot | ⟨-, -, -, -, hstate, -⟩
    · obtain ⟨settings, random, -, hn⟩ := boot.node_eq
      rw [hn]
      rfl
    · rw [hstate]
      rfl
  obtain ⟨said, founding⟩ := h.requests hs asking ends unanswered
  rw [start.requestsLeft_eq] at said
  exact ⟨said, fun ordered => (h.requests_apart asking unanswered ordered).1, founding,
    fun radio clock told => (h.reachable start.reachable).founds founding told radio clock⟩

/-! ## Node 1 hears others only -/

/-- Node 1 is switched on, and hears that node 2 is let in and a payload of node 3, but nobody
answers it. -/
def unheard? : Option (Station Beacon × List (Moment Beacon) × Station Beacon) :=
  Station.played? ⟨1⟩ [
    (.zero, []),
    (.zero, [⟨some ⟨3⟩, .everyone, (Message.joinAck ⟨2⟩ ⟨7⟩ 5 false [⟨2⟩, ⟨3⟩]).encode⟩]),
    (.ofMillis 1000, [⟨some ⟨3⟩, .everyone, (Message.data 6 [5]).encode⟩]),
    (.ofMillis 3000, []), (.ofMillis 3100, []), (.ofMillis 6100, []), (.ofMillis 6100, []),
    (.ofMillis 9999, []), (.ofMillis 9999, []), (.ofMillis 12999, [])]

theorem isSome_unheard? : unheard?.isSome = true := by decide +kernel

/-- Node 1 when it is switched on, what it does, and what it is after that. -/
def unheard : Station Beacon × List (Moment Beacon) × Station Beacon :=
  unheard?.get isSome_unheard?

theorem run_unheard : unheard.1.Booted ∧ unheard.1.Run unheard.2.1 unheard.2.2 :=
  Station.run_of_played? (p := unheard) (Option.some_get isSome_unheard?).symm

theorem unheard_asks : (∀ x ∈ unheard.2.1, x.before.node.state.isAsking = true) ∧
    unheard.2.2.node.state.isAsking = false ∧ (∀ x ∈ unheard.2.1, ¬x.HearsAnswer) ∧
    unheard.2.1.Pairwise fun x y => x.clock.start ≤ y.clock.start := by
  decide +kernel

theorem not_overflows_unheard : ¬unheard.2.2.node.Overflows .rescanWait := by
  have roomy : unheard.2.2.node.settings.Roomy := ⟨by decide +kernel, by decide +kernel⟩
  exact fun h => h.not_roomy roomy

/-- **Node 1 asks four times and founds a network.** -/
theorem unanswered_node_founds_network_of_unheard :
    (attempts unheard.2.1).map Prod.snd = List.replicate 4 (.toAll (.joinRequest ⟨1⟩)) ∧
    ((attempts unheard.2.1).Pairwise fun a b => a.1.Apart (.ofMillis 3000) b.1) ∧
    ∃ u events, unheard.2.2.step ({} : ScriptedRadio) (.still (.ofMillis 12999)) =
      .ok (u, {}, events) ∧ u.node.Founded := by
  obtain ⟨boot, hrun⟩ := run_unheard
  obtain ⟨asking, ends, unanswered, ordered⟩ := unheard_asks
  obtain ⟨said, apart, -, founds⟩ :=
    unanswered_node_founds_network (Or.inl boot) hrun asking ends unanswered
  exact ⟨said.trans (by decide +kernel), apart ordered, founds _ _ not_overflows_unheard⟩

end RadioRing
