import RadioRing.Proofs.Lockstep
import RadioRing.Proofs.Reachable

/-!
# Proofs/Runs — a station step by step

A `Moment` is one step of a station with all that passed in it: the message heard, the reaction, and
whether the radio took its frame.  A `Station.Run` lists the moments that lead from one station to
another, **on radios and clocks that may do anything**, so a stretch of a run is a part of that list
(`Run.of_append`).  What holds of a station that has just been switched on and is kept by every
moment holds of all stations that can come about (`Reachable.invariant`).
-/

namespace RadioRing

/-- One step of a station, and what passed in it. -/
structure Moment (α : Type) where
  /-- The station before the step. -/
  before : Station α
  clock : Readings
  /-- What came from the radio. -/
  heard : Option Inbound
  reaction : Reaction α
  /-- Whether the radio took the frame of the reaction. -/
  taken : Bool
  /-- The station after the step. -/
  after : Station α

namespace Moment

variable {α : Type}

/-- The step asks to send the message. -/
def Says (x : Moment α) (m : Message) : Prop := ∃ e ∈ x.reaction.emission, e.message = m

/-- The step asks to send a payload, for the first time or again, with a token of that round. -/
def SpeaksIn (x : Moment α) (round : UInt32) : Prop :=
  ∃ body, x.Says (.data round body) ∨ x.Says (.retry round body)

/-- The step looks at the message: it came from the radio or had been put aside. -/
def Regards (x : Moment α) (m : Inbound) : Prop := x.before.node.regards x.heard = some m

variable [Application α]

/-- The step happens on some radio. -/
def Happens (x : Moment α) : Prop :=
  ∃ (ρ : Type) (_ : Radio ρ) (radio radio' : ρ) (events : List Event),
    x.before.step radio x.clock = .ok (x.after, radio', events) ∧
    (x.before.hear radio x.clock.start).1 = x.heard ∧
    x.before.node.react x.before.app x.clock x.heard = .ok x.reaction ∧
    (Station.emit x.before.node.link (x.before.hear radio x.clock.start).2.1
      x.reaction.emission).1 = x.taken

/-- The step happens on that radio, which is `radio'` afterwards. -/
def HappensOn {ρ : Type} [Radio ρ] (x : Moment α) (radio radio' : ρ) : Prop :=
  ∃ events, x.before.step radio x.clock = .ok (x.after, radio', events) ∧
    (x.before.hear radio x.clock.start).1 = x.heard ∧
    x.before.node.react x.before.app x.clock x.heard = .ok x.reaction ∧
    (Station.emit x.before.node.link (x.before.hear radio x.clock.start).2.1
      x.reaction.emission).1 = x.taken

variable {x : Moment α}

/-- What happens on one radio happens on some radio. -/
theorem HappensOn.happens {ρ : Type} [Radio ρ] {radio radio' : ρ} (h : x.HappensOn radio radio') :
    x.Happens := by
  obtain ⟨events, h⟩ := h
  exact ⟨ρ, _, radio, radio', events, h⟩

/-- A moment is a step of its station, and the reaction it records is the one carried out. -/
theorem Happens.steps (h : x.Happens) :
    x.before.Steps x.clock x.heard x.reaction x.taken x.after := by
  obtain ⟨ρ, _, radio, radio', events, hstep, hheard, hreact, htaken⟩ := h
  obtain ⟨r, hr, -⟩ := Station.step_eq_ok hstep
  obtain rfl : r = x.reaction := Except.ok.inj (hr.reacts.symm.trans (hheard ▸ hreact))
  rwa [hheard, htaken] at hr

/-- **Every moment is one of the acts of its node.** -/
theorem Happens.acts (h : x.Happens) : x.before.node.Acts x.clock x.heard x.reaction.node
    x.reaction.emission x.reaction.transition :=
  Node.acts_of_react h.steps.reacts

/-- What is heard has passed the filter of the link. -/
theorem Happens.passes (h : x.Happens) {m : Inbound} (hm : x.heard = some m) :
    x.before.node.link.Passes m := by
  obtain ⟨ρ, _, radio, radio', events, -, hheard, -⟩ := h
  exact Station.passes_of_hear (hheard.trans hm)

/-! ## After a moment -/

/-- What a step adds to its reaction: the state it goes to, the marks and what they count, the frame
that the radio took, and the timers with the random numbers drawn for them. -/
theorem Happens.node_after (h : x.Happens) : ∃ timers random evictions admissions,
    x.after.node = { x.reaction.node with
      state := x.reaction.transition.next
      table := x.reaction.node.table.markAll x.reaction.transition.marks
      stats := { x.reaction.booked x.taken with evictions, admissions }
      timers, random } := by
  obtain ⟨timers, random, e, a, hn, -⟩ := h.steps.node_eq
  exact ⟨timers, random, e, a, hn⟩

/-- **A transition that arms nothing** leaves the node as the rule has left it, but for the state,
the table and the counters. -/
theorem Happens.node_after_of_unarmed (h : x.Happens)
    (unarmed : x.reaction.transition.next = x.reaction.node.state ∨
      x.reaction.transition.next.armed = []) :
    x.after.node = { (Node.applyMarks { x.reaction.node with stats := x.reaction.booked x.taken }
        x.reaction.transition.marks).1 with state := x.reaction.transition.next } := by
  obtain ⟨events, hf⟩ := h.steps.ends
  obtain ⟨remarks, hmove⟩ := Node.move_of_unarmed
    (n := { x.reaction.node with stats := x.reaction.booked x.taken }) unarmed x.clock.entered
  exact (Prod.mk.inj (Except.ok.inj (hf.symm.trans hmove))).1

/-- **A transition that changes no flag and arms nothing**, after a frame that moves no counter,
changes what its rule changes, and the state. -/
theorem Happens.node_after_of_uncredited (h : x.Happens) (next : State)
    (ht : x.reaction.transition = .goTo next) (uncredited : x.reaction.credit = .nothing)
    (unarmed : next = x.reaction.node.state ∨ next.armed = []) :
    x.after.node = { x.reaction.node with state := next } := by
  have hafter := h.node_after_of_unarmed (by rwa [ht])
  have hbooked : x.reaction.booked x.taken = x.reaction.node.stats := by
    simp only [Reaction.booked, uncredited, Stats.credit, ite_self]
  rwa [hbooked, ht] at hafter

/-- A transition that arms nothing leaves the timers to the rule. -/
theorem Happens.timers_after (h : x.Happens)
    (unarmed : x.reaction.transition.next = x.reaction.node.state ∨
      x.reaction.transition.next.armed = []) :
    x.after.node.timers = x.reaction.node.timers := by
  obtain ⟨e, a, hm⟩ := Node.fst_applyMarks x.reaction.transition.marks
    { x.reaction.node with stats := x.reaction.booked x.taken }
  rw [h.node_after_of_unarmed unarmed, hm]

theorem Happens.state_after (h : x.Happens) :
    x.after.node.state = x.reaction.transition.next := by
  obtain ⟨timers, random, e, a, hn⟩ := h.node_after
  rw [hn]

/-- Nothing touches the rounds once the rule has been applied. -/
theorem Happens.rounds_after (h : x.Happens) : x.after.node.rounds = x.reaction.node.rounds := by
  obtain ⟨timers, random, e, a, hn⟩ := h.node_after
  rw [hn]

theorem Happens.session_after (h : x.Happens) :
    x.after.node.session = x.reaction.node.session := by
  obtain ⟨timers, random, e, a, hn⟩ := h.node_after
  rw [hn]

theorem Happens.deferred_after (h : x.Happens) :
    x.after.node.deferred = x.reaction.node.deferred := by
  obtain ⟨timers, random, e, a, hn⟩ := h.node_after
  rw [hn]

theorem Happens.presumedHolder_after (h : x.Happens) :
    x.after.node.presumedHolder = x.reaction.node.presumedHolder := by
  obtain ⟨timers, random, e, a, hn⟩ := h.node_after
  rw [hn]

theorem Happens.offer_after (h : x.Happens) : x.after.node.offer = x.reaction.node.offer := by
  obtain ⟨timers, random, e, a, hn⟩ := h.node_after
  rw [hn]

theorem Happens.lastDelivered_after (h : x.Happens) :
    x.after.node.lastDelivered = x.reaction.node.lastDelivered := by
  obtain ⟨timers, random, e, a, hn⟩ := h.node_after
  rw [hn]

theorem Happens.turnsHandedOff_after (h : x.Happens) :
    x.after.node.stats.turnsHandedOff = x.reaction.node.stats.turnsHandedOff := by
  obtain ⟨timers, random, e, a, hn⟩ := h.node_after
  rw [hn]
  exact x.reaction.turnsHandedOff_booked x.taken

theorem Happens.payloadsEchoed_after (h : x.Happens) :
    x.after.node.stats.payloadsEchoed = x.reaction.node.stats.payloadsEchoed := by
  obtain ⟨timers, random, e, a, hn⟩ := h.node_after
  rw [hn]
  exact x.reaction.payloadsEchoed_booked x.taken

/-- **No step changes the settings.** -/
theorem Happens.settings_after (h : x.Happens) :
    x.after.node.settings = x.before.node.settings := by
  obtain ⟨timers, random, e, a, hn⟩ := h.node_after
  rw [hn]
  exact h.acts.settings_eq

theorem Happens.own_after (h : x.Happens) : x.after.node.own = x.before.node.own :=
  congrArg Settings.node h.settings_after

/-- **A step changes the table by the marks of its transition only.** -/
theorem Happens.table_after (h : x.Happens) :
    x.after.node.table = x.before.node.table.markAll x.reaction.transition.marks := by
  obtain ⟨timers, random, e, a, hn⟩ := h.node_after
  rw [hn, ← h.acts.table_eq]

/-- Marks that are no news leave the counters to what the radio has taken. -/
theorem Happens.stats_after (h : x.Happens)
    (old : ∀ y ∈ x.reaction.transition.marks, x.before.node.table.isNews y.node y.eligible = false) :
    x.after.node.stats = x.reaction.booked x.taken := by
  obtain ⟨events, hf⟩ := h.steps.ends
  exact Reaction.stats_of_finish hf (h.acts.table_eq ▸ old)

end Moment

namespace Station

variable {α : Type} [Application α] {s s' t : Station α}

/-- **A step on any radio is a moment on it.** -/
theorem exists_happensOn {ρ : Type} [Radio ρ] {radio radio' : ρ} {clock : Readings}
    {events : List Event} (h : s.step radio clock = .ok (s', radio', events)) :
    ∃ x : Moment α, x.HappensOn radio radio' ∧ x.before = s ∧ x.clock = clock ∧ x.after = s' := by
  obtain ⟨r, hr, -⟩ := step_eq_ok h
  let taken := (emit s.node.link (s.hear radio clock.start).2.1 r.emission).1
  exact ⟨⟨s, clock, (s.hear radio clock.start).1, r, taken, s'⟩, ⟨events, h, rfl, hr.reacts, rfl⟩,
    rfl, rfl, rfl⟩

/-- The station has just been switched on, with any random numbers, and its settings are in
order. -/
def Booted (s : Station α) : Prop :=
  ∃ settings random app, Station.bootWith settings random app = .ok (.ok s)

omit [Application α] in
/-- A station that has just been switched on holds a fresh node, with settings in order. -/
theorem Booted.node_eq (h : s.Booted) :
    ∃ settings random, settings.check = .ok (.ok ()) ∧ s.node = .boot settings random := by
  obtain ⟨settings, random, app, h⟩ := h
  obtain ⟨hcheck, rfl⟩ := eq_of_boot h
  exact ⟨settings, random, hcheck, rfl⟩

theorem Booted.reachable (h : s.Booted) : s.Reachable := by
  obtain ⟨settings, random, app, h⟩ := h
  exact .boot h

/-- Every moment leads on to a station that can come about. -/
theorem Reachable.moment {x : Moment α} (hs : x.before.Reachable) (h : x.Happens) :
    x.after.Reachable := by
  obtain ⟨ρ, _, radio, radio', events, hstep, -⟩ := h
  exact .step hs hstep

/-- **What holds at the start and is kept by every moment holds at any time.** -/
theorem Reachable.invariant {P : Station α → Prop} (h : s.Reachable)
    (start : ∀ s : Station α, s.Booted → P s)
    (step : ∀ x : Moment α, x.Happens → x.before.Reachable → P x.before → P x.after) : P s := by
  induction h with
  | boot h => exact start _ ⟨_, _, _, h⟩
  | step hs h ih =>
    obtain ⟨x, hx, rfl, -, rfl⟩ := exists_happensOn h
    exact step x hx.happens hs ih

/-! ## Runs -/

/-- The moments that lead from `s` to another station, the first one first. -/
inductive Run (s : Station α) : List (Moment α) → Station α → Prop
  | refl : Run s [] s
  | step {run : List (Moment α)} {x : Moment α} (h : Run s run x.before) (hx : x.Happens) :
      Run s (run ++ [x]) x.after

namespace Run

variable {run early late : List (Moment α)} {x : Moment α}

/-- The last moment of a run leads to where the run ends. -/
theorem of_concat (h : s.Run (run ++ [x]) t) : s.Run run x.before ∧ x.Happens ∧ t = x.after := by
  generalize hall : run ++ [x] = all at h
  cases h with
  | refl => simp at hall
  | step h hx =>
    obtain ⟨rfl, he⟩ := List.append_inj' hall rfl
    obtain rfl := List.singleton_inj.1 he
    exact ⟨h, hx, rfl⟩

theorem eq_of_nil (h : s.Run [] t) : t = s := by
  generalize hall : ([] : List (Moment α)) = all at h
  cases h with
  | refl => rfl
  | step h hx => simp at hall

theorem of_eq (h : t = s) : s.Run [] t := h ▸ .refl

/-- **A stretch of a run is a run.** -/
theorem of_append (h : s.Run (early ++ late) t) : ∃ u, s.Run early u ∧ u.Run late t := by
  generalize hall : early ++ late = all at h
  induction h generalizing late with
  | refl =>
    obtain ⟨rfl, rfl⟩ := List.append_eq_nil_iff.1 hall
    exact ⟨s, .refl, .refl⟩
  | @step run x h hx ih =>
    -- The last moment belongs to the later part, unless nothing does.
    rcases List.eq_nil_or_concat late with rfl | ⟨late, y, rfl⟩
    · exact ⟨x.after, by simpa [← hall] using h.step hx, .refl⟩
    · rw [List.concat_eq_append, ← List.append_assoc] at hall
      obtain ⟨hrun, hy⟩ := List.append_inj' hall rfl
      obtain rfl := List.singleton_inj.1 hy
      obtain ⟨u, hearly, hlate⟩ := ih hrun
      exact ⟨u, hearly, by simpa using hlate.step hx⟩

/-- A run that begins where another one ends continues it. -/
theorem append (h : s.Run early t) (h' : t.Run late s') : s.Run (early ++ late) s' := by
  induction h' with
  | refl => simpa using h
  | step _ hx ih => simpa using ih.step hx

/-- A moment before a run from where it leads makes a longer run. -/
theorem cons (hx : x.Happens) (h : x.after.Run run t) : x.before.Run (x :: run) t :=
  append (show x.before.Run ([] ++ [x]) x.after from .step .refl hx) h

/-- The first moment of a run happens where the run begins. -/
theorem of_cons (h : s.Run (x :: run) t) : x.before = s ∧ x.Happens ∧ x.after.Run run t := by
  obtain ⟨u, hfirst, hrest⟩ := of_append (show s.Run ([x] ++ run) t from h)
  obtain ⟨hnil, hx, rfl⟩ := of_concat (show s.Run ([] ++ [x]) u from hfirst)
  exact ⟨hnil.eq_of_nil, hx, hrest⟩

/-- A moment of a run happens where the moments before it have led. -/
theorem of_middle (h : s.Run (early ++ x :: late) t) :
    s.Run early x.before ∧ x.Happens ∧ x.after.Run late t := by
  obtain ⟨u, hearly, hlate⟩ := h.of_append
  obtain ⟨rfl, hx, hrest⟩ := hlate.of_cons
  exact ⟨hearly, hx, hrest⟩

/-- The moments between two moments of a run lead from one to the other. -/
theorem of_mem (h : s.Run early t) {y : Moment α} (hy : y ∈ early) : ∃ first between,
    early = first ++ y :: between ∧ s.Run first y.before ∧ y.Happens ∧ y.after.Run between t := by
  obtain ⟨first, between, rfl⟩ := List.append_of_mem hy
  exact ⟨first, between, rfl, h.of_middle⟩

/-- **A run from a station that can come about leads to one.** -/
theorem reachable (h : s.Run run t) (hs : s.Reachable) : t.Reachable := by
  induction h with
  | refl => exact hs
  | step _ hx ih => exact ih.moment hx

end Run

/-! ## Runs that are played -/

omit [Application α] in
/-- Every moment of a run stands between those before it and those after it. -/
theorem eq_take_append_get {β : Type} (run : List β) (i : Fin run.length) :
    run = run.take i ++ run.get i :: run.drop (i + 1) := by
  rw [List.get_eq_getElem, List.getElem_cons_drop, List.take_append_drop]

/-- The moment that a step makes. -/
def moment? {ρ : Type} [Radio ρ] (s : Station α) (radio : ρ) (clock : Readings) :
    Option (Moment α) := do
  let p := s.hear radio clock.start
  let r ← (s.node.react s.app clock p.1).toOption
  let q ← (s.step radio clock).toOption
  return ⟨s, clock, p.1, r, (emit s.node.link p.2.1 r.emission).1, q.1⟩

/-- A moment that is computed happens, on the radio it was computed with. -/
theorem happensOn_of_moment? {ρ : Type} [Radio ρ] {radio : ρ} {clock : Readings} {x : Moment α}
    (h : s.moment? radio clock = some x) :
    ∃ radio', x.HappensOn radio radio' ∧ x.before = s ∧ x.clock = clock := by
  simp only [moment?, bind, Option.bind_eq_some_iff, pure, Option.some.injEq] at h
  obtain ⟨r, hr, ⟨s', radio', events⟩, hstep, rfl⟩ := h
  exact ⟨radio', ⟨events, eq_ok_of_toOption hstep, rfl, eq_ok_of_toOption hr, rfl⟩, rfl, rfl⟩

theorem happens_of_moment? {ρ : Type} [Radio ρ] {radio : ρ} {clock : Readings} {x : Moment α}
    (h : s.moment? radio clock = some x) : x.Happens ∧ x.before = s := by
  obtain ⟨radio', hx, rfl, -⟩ := happensOn_of_moment? h
  exact ⟨hx.happens, rfl⟩

/-- The moments of a station that steps at the given times, with the given packets on the air, and
the station after them. -/
def play? (s : Station α) : List (Timestamp × List Packet) → Option (List (Moment α) × Station α)
  | [] => some ([], s)
  | (now, inbox) :: rest => do
    let x ← s.moment? ({ inbox } : ScriptedRadio) (.still now)
    let p ← x.after.play? rest
    return (x :: p.1, p.2)

/-- **What is played is a run**: a script that can be played out shows that the run exists. -/
theorem run_of_play? {script : List (Timestamp × List Packet)} {run : List (Moment α)}
    (h : s.play? script = some (run, t)) : s.Run run t := by
  induction script generalizing s run with
  | nil =>
    obtain ⟨rfl, rfl⟩ := Prod.mk.inj (Option.some.inj h)
    exact .refl
  | cons entry rest ih =>
    simp only [play?, bind, Option.bind_eq_some_iff, pure, Option.some.injEq, Prod.mk.injEq] at h
    obtain ⟨x, hx, ⟨late, t'⟩, hlate, rfl, rfl⟩ := h
    obtain ⟨happens, rfl⟩ := happens_of_moment? hx
    exact .cons happens (ih hlate)

/-- The station `own` of the ring 1, 2, 3 when it is switched on, and what it does then. -/
def played? (own : Address) (script : List (Timestamp × List Packet)) :
    Option (Station Beacon × List (Moment Beacon) × Station Beacon) := do
  let booted ← (Station.boot (settingsOfThree own) 0 ({ own } : Beacon)).toOption
  let s ← booted.toOption
  let p ← s.play? script
  return (s, p)

/-- A script that is played from the start shows a run of a station just switched on. -/
theorem run_of_played? {own : Address} {script : List (Timestamp × List Packet)}
    {p : Station Beacon × List (Moment Beacon) × Station Beacon}
    (h : played? own script = some p) : p.1.Booted ∧ p.1.Run p.2.1 p.2.2 := by
  simp only [played?, bind, Option.bind_eq_some_iff, pure, Option.some.injEq] at h
  obtain ⟨booted, hbooted, s, hs, q, hq, rfl⟩ := h
  obtain rfl := eq_ok_of_toOption hs
  exact ⟨⟨_, _, _, eq_ok_of_toOption hbooted⟩, run_of_play? hq⟩

/-- A moment of a run that is played happens at a station that can come about. -/
theorem happens_of_played? {own : Address} {script : List (Timestamp × List Packet)} {i : Nat}
    {x : Moment Beacon} (h : (played? own script).bind (fun p => p.2.1[i]?) = some x) :
    x.before.Reachable ∧ x.Happens := by
  obtain ⟨⟨s, run, t⟩, hp, hx⟩ := Option.bind_eq_some_iff.1 h
  obtain ⟨boot, hrun⟩ := run_of_played? hp
  obtain ⟨early, late, rfl, hearly, hx, -⟩ := hrun.of_mem (List.mem_of_getElem? hx)
  exact ⟨hearly.reachable boot.reachable, hx⟩

end Station

end RadioRing
