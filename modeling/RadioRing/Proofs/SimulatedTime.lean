import Mathlib.Algebra.Order.Floor.Div
import RadioRing.Medium.Rules
import RadioRing.Proofs.History
import RadioRing.Proofs.Overflows

/-!
# Proofs/SimulatedTime — how many steps a stretch of simulated time takes

A run steps for as long as it has to (`Loop`), and **a step moves the clock by the whole
milliseconds of a tick, whatever the nodes do** (`now_of_step`).  With a tick of a millisecond or
more a run is over after as many steps as there are ticks in its time (`Loop.length_eq`), which is
less than it may take at most, so that it is never given up (`Loop.tells`).  With a shorter tick the
clock stands still, and a run that waits for it never ends (`Loop.of_still`).
-/

namespace RadioRing

/-! ## A step leaves the clock to the simulation -/

namespace Medium

variable {φ : Type}

theorem now_receive (m : Medium φ) (a : Address) : (m.receive a).2.now = m.now := by
  unfold receive
  split <;> rfl

variable [DropFilter φ]

theorem now_spread {loss : Loss} {e : Envelope} {receivers : List Address} {m : Medium φ} :
    (spread loss e receivers m).now = m.now := by
  induction receivers generalizing m with
  | nil => rfl
  | cons receiver rest ih => exact ih

theorem now_transmit (m : Medium φ) (sender dest : Address) (bytes : Bytes) :
    (m.transmit sender dest bytes).2.now = m.now := by
  unfold transmit
  split
  · exact now_spread
  · rfl

end Medium

section

variable {φ α : Type} [DropFilter φ] {m : Medium φ} {a : Address} {antenna : Antenna φ}

/-- Listening takes no time. -/
theorem Station.now_hear (s : Station α) (m : Medium φ) (a : Address) (now : Timestamp) :
    (s.hear (Antenna.mk m a) now).2.1.medium.now = m.now := by
  have hreceive := m.now_receive a
  rw [hear_eq]
  split
  · rfl
  · rw [Link.await, Antenna.receive_eq]
    cases (m.receive a).1 with
    | none => exact hreceive
    | some p => exact hreceive

theorem Station.now_emit (l : Link) (antenna : Antenna φ) (emission : Option Emission) :
    (emit l antenna emission).2.1.medium.now = antenna.medium.now := by
  cases emission with
  | none => rfl
  | some e =>
    have hemit : emit l antenna (some e) = l.send antenna e.dest e.message := rfl
    rw [hemit, Link.send]
    split
    · rfl
    · rename_i bytes _
      have htransmit := antenna.medium.now_transmit antenna.own e.dest bytes
      rw [Antenna.send_eq]
      cases (antenna.medium.transmit antenna.own e.dest bytes).1 with
      | error _ => exact htransmit
      | ok _ => exact htransmit

/-- **No step of a station moves the clock.** -/
theorem Moment.HappensOn.now_eq [Application α] {x : Moment α}
    (h : x.HappensOn (Antenna.mk m a) antenna) : antenna.medium.now = m.now := by
  obtain ⟨events, hstep, -⟩ := h
  obtain ⟨r, -, rfl⟩ := Station.step_eq_ok hstep
  rw [Station.now_emit, Station.now_hear]

end

/-! ## Room for every delay -/

/-- Whoever cannot tell its wait as a lone node has no room. -/
theorem Node.RescanOverflows.not_roomy {n : Node} (h : n.RescanOverflows) : ¬n.settings.Roomy := by
  intro roomy
  have hdelay := n.random.nanos_delay_le n.settings.timings.joinResend
  have hwait := roomy.rescanWait
  unfold RescanOverflows at h
  omega

/-- **Where there is room, no step fails**, however the station has come about. -/
theorem Station.exists_step_of_roomy {α ρ : Type} [Application α] [Radio ρ] {s : Station α}
    (roomy : s.node.settings.Roomy) (radio : ρ) (clock : Readings) :
    ∃ p, s.step radio clock = .ok p := by
  cases hstep : s.step radio clock with
  | ok p => exact ⟨p, rfl⟩
  | error e =>
    rcases Station.step_eq_error_iff.1 hstep with hreact | ⟨r, hreact, -, -, -, hlong⟩
    · obtain ⟨hs, rfl, hlong⟩ := Node.react_eq_error_iff.1 hreact
      have hoverflows : s.node.Overflows .joinWait := ⟨hs, hlong⟩
      exact absurd roomy hoverflows.not_roomy
    · rw [← (Node.acts_of_react hreact).settings_eq] at roomy
      exact absurd roomy hlong.not_roomy

namespace Simulation

variable {φ : Type} {s t : Simulation φ} {a : Address} {remarks : List Remark} {limit : Timestamp}

/-- Every node that is switched on has room for the longest delays. -/
def Roomy (s : Simulation φ) : Prop :=
  ∀ a station, s.stations.get? a = some station → station.node.settings.Roomy

/-- Where no node is switched on, there is room. -/
theorem Fresh.roomy (h : s.Fresh) : s.Roomy := by
  intro a station hget
  rw [h.off] at hget
  exact absurd hget nofun

/-- The map of a roomy simulation stays so when a station with room is put into it. -/
theorem Roomy.insert {station : Station Beacon} (roomy : s.Roomy)
    (hstation : station.node.settings.Roomy) {x : Address} {y : Station Beacon}
    (hget : (s.stations.insert a station).get? x = some y) : y.node.settings.Roomy := by
  rw [AddressMap.get?_insert] at hget
  split at hget
  · obtain rfl := Option.some.inj hget
    exact hstation
  · exact roomy x y hget

/-- A node with room that is switched on leaves room. -/
theorem Roomy.powerOn {result : Except SettingsError Unit} (roomy : s.Roomy)
    (hsettings : (s.settingsOf a).Roomy) (h : s.powerOn a = .ok (result, t)) : t.Roomy := by
  unfold Simulation.powerOn at h
  dsimp only at h
  split at h
  · exact absurd h nofun
  · obtain rfl := (Prod.mk.inj (Except.ok.inj h)).2
    exact roomy
  · rename_i station hboot
    obtain rfl := (Prod.mk.inj (Except.ok.inj h)).2
    rw [(Station.eq_of_boot hboot).2]
    exact fun _ _ => roomy.insert hsettings

variable [DropFilter φ]

/-- What a step of a node leaves as it is. -/
structure Keeps (s t : Simulation φ) : Prop where
  now : t.now = s.now
  tick : t.tick = s.tick
  roomy : s.Roomy → t.Roomy

/-- A step of one node keeps the clock, the tick and the room. -/
theorem keeps_of_stepNode (h : s.stepNode a = .ok (t, remarks)) : s.Keeps t := by
  rcases stepNode_eq_ok h with rfl | ⟨x, hx⟩
  · exact ⟨rfl, rfl, id⟩
  · obtain ⟨antenna, hhappens, rfl⟩ := hx.happens
    refine ⟨hhappens.now_eq, rfl, fun roomy _ _ => roomy.insert ?_⟩
    rw [hhappens.happens.settings_after]
    exact roomy a x.before hx.powered

/-- The steps of all nodes, one after the other, keep the clock, the tick and the room. -/
theorem keeps_of_stepNodes {addresses : List Address}
    (h : s.stepNodes addresses = .ok (t, remarks)) : s.Keeps t := by
  induction addresses generalizing s remarks with
  | nil =>
    obtain rfl := (Prod.mk.inj (Except.ok.inj h)).1
    exact ⟨rfl, rfl, id⟩
  | cons a rest ih =>
    obtain ⟨u, _, _, hfirst, hrest⟩ := stepNodes_cons_eq_ok h
    have kept := keeps_of_stepNode hfirst
    have keptLater := ih hrest
    exact ⟨keptLater.now.trans kept.now, keptLater.tick.trans kept.tick,
      fun roomy => keptLater.roomy (kept.roomy roomy)⟩

/-- **A step moves the clock by one tick.** -/
theorem now_of_step (h : s.step = .ok (t, remarks)) : t.now = s.now.after s.tick := by
  obtain ⟨u, hnodes, rfl⟩ := step_eq_ok h
  have kept := keeps_of_stepNodes hnodes
  rw [← kept.now, ← kept.tick]
  rfl

theorem tick_of_step (h : s.step = .ok (t, remarks)) : t.tick = s.tick := by
  obtain ⟨u, hnodes, rfl⟩ := step_eq_ok h
  exact (keeps_of_stepNodes hnodes).tick

/-- **A step leaves room if there was room.** -/
theorem Roomy.of_step (roomy : s.Roomy) (h : s.step = .ok (t, remarks)) : t.Roomy := by
  obtain ⟨u, hnodes, rfl⟩ := step_eq_ok h
  exact (keeps_of_stepNodes hnodes).roomy roomy

theorem Roomy.exists_stepNode (roomy : s.Roomy) (a : Address) : ∃ p, s.stepNode a = .ok p := by
  unfold Simulation.stepNode
  cases hget : s.stations.get? a with
  | none => exact ⟨_, rfl⟩
  | some station =>
    obtain ⟨⟨station', antenna, events⟩, hstep⟩ := Station.exists_step_of_roomy
      (roomy a station hget) (Antenna.mk s.medium a) (.still s.now)
    simp only [hstep]
    exact ⟨_, rfl⟩

/-- With room, each node can step in turn; the steps before it have left it room. -/
theorem Roomy.exists_stepNodes (roomy : s.Roomy) (addresses : List Address) :
    ∃ p, s.stepNodes addresses = .ok p := by
  induction addresses generalizing s with
  | nil => exact ⟨_, rfl⟩
  | cons a rest ih =>
    obtain ⟨⟨u, first⟩, hfirst⟩ := roomy.exists_stepNode a
    obtain ⟨⟨t, more⟩, hrest⟩ := ih ((keeps_of_stepNode hfirst).roomy roomy)
    simp only [stepNodes, hfirst, hrest, bind, Except.bind]
    exact ⟨_, rfl⟩

/-- **Where every node has room, the simulation can take its next step.** -/
theorem Roomy.exists_step (roomy : s.Roomy) : ∃ p, s.step = .ok p := by
  obtain ⟨⟨t, remarks⟩, hnodes⟩ := roomy.exists_stepNodes s.stations.keys
  simp only [step, hnodes, bind, Except.bind]
  exact ⟨_, rfl⟩

/-! ## Runs of any length -/

/-- What comes of a run that steps until `stop` tells how it ends, **however long that takes**: the
simulations that it has stepped from, the first one first, and the last simulation with the answer,
or why a step failed. -/
inductive Loop (stop : Simulation φ → Option Bool) :
    Simulation φ → List (Simulation φ) → Except Overflow (Simulation φ × Bool) → Prop
  | stops {s : Simulation φ} {reached : Bool} :
      stop s = some reached → Loop stop s [] (.ok (s, reached))
  | fails {s : Simulation φ} {e : Overflow} :
      stop s = none → s.step = .error e → Loop stop s [s] (.error e)
  | goesOn {s t : Simulation φ} {remarks : List Remark} {passed : List (Simulation φ)}
      {result : Except Overflow (Simulation φ × Bool)} :
      stop s = none → s.step = .ok (t, remarks) → Loop stop t passed result →
      Loop stop s (s :: passed) result

/-- The end of a run that waits for the clock. -/
def timeIsUp (limit : Timestamp) (s : Simulation φ) : Option Bool :=
  if s.now < limit then none else some true

/-- The end of a run that waits for a goal or the clock. -/
def goalOrTimeIsUp (goal : Simulation φ → Bool) (limit : Timestamp) (s : Simulation φ) :
    Option Bool :=
  if goal s then some true else if s.now < limit then none else some false

/-- The outcome of a run tells its result, and that it was not given up. -/
def Tells (outcome : Except Overflow (Outcome φ))
    (result : Except Overflow (Simulation φ × Bool)) : Prop :=
  outcome.map (fun o => (o.simulation, o.reached)) = result.map fun p => (p.1, some p.2)

variable {stop : Simulation φ → Option Bool} {goal : Simulation φ → Bool} {reached : Bool}
  {passed passed' : List (Simulation φ)} {result result' : Except Overflow (Simulation φ × Bool)}

omit [DropFilter φ] in
/-- A run that waits for the clock goes on before its limit, and only then. -/
theorem timeIsUp_eq_none_iff : timeIsUp limit s = none ↔ s.now < limit := by
  simp [timeIsUp]

omit [DropFilter φ] in
theorem reached_of_timeIsUp (h : timeIsUp limit s = some reached) : reached = true := by
  unfold timeIsUp at h
  split at h
  · exact absurd h nofun
  · exact (Option.some.inj h).symm

omit [DropFilter φ] in
/-- A run that waits for a goal goes on while the goal is missed before the limit. -/
theorem goalOrTimeIsUp_eq_none_iff :
    goalOrTimeIsUp goal limit s = none ↔ goal s = false ∧ s.now < limit := by
  unfold goalOrTimeIsUp
  split <;> simp_all

omit [DropFilter φ] in
/-- The answer of a run that waits for a goal tells whether the goal was reached. -/
theorem goal_of_goalOrTimeIsUp (h : goalOrTimeIsUp goal limit s = some reached) :
    goal s = reached := by
  unfold goalOrTimeIsUp at h
  split at h
  · exact ‹goal s = true›.trans (Option.some.inj h)
  · split at h
    · exact absurd h nofun
    · exact (Bool.eq_false_of_not_eq_true ‹¬goal s = true›).trans (Option.some.inj h)

/-- A run that is at its end needs no fuel. -/
theorem advance_of_some (hs : stop s = some reached) (fuel : Nat) :
    advance stop fuel s remarks = .ok ⟨s, remarks, some reached⟩ := by
  cases fuel <;> simp only [advance, hs]

theorem advance_of_error {e : Overflow} (hs : stop s = none) (hstep : s.step = .error e)
    (fuel : Nat) : advance stop (fuel + 1) s remarks = .error e := by
  simp only [advance, hs, hstep]

/-- A run goes on with one piece of fuel less. -/
theorem advance_of_ok {more : List Remark} (hs : stop s = none) (hstep : s.step = .ok (t, more))
    (fuel : Nat) :
    advance stop (fuel + 1) s remarks = advance stop fuel t (more.reverse ++ remarks) := by
  simp only [advance, hs, hstep]

namespace Loop

/-- **A run comes to one result, by one way.** -/
theorem unique (h : Loop stop s passed result) (h' : Loop stop s passed' result') :
    passed = passed' ∧ result = result' := by
  induction h generalizing passed' result' with
  | stops hs =>
    cases h' with
    | stops hs' =>
      obtain rfl := Option.some.inj (hs.symm.trans hs')
      exact ⟨rfl, rfl⟩
    | fails hs' | goesOn hs' => exact absurd (hs.symm.trans hs') nofun
  | fails hs hstep =>
    cases h' with
    | stops hs' => exact absurd (hs.symm.trans hs') nofun
    | fails _ hstep' =>
      obtain rfl := Except.error.inj (hstep.symm.trans hstep')
      exact ⟨rfl, rfl⟩
    | goesOn _ hstep' => exact absurd (hstep.symm.trans hstep') nofun
  | goesOn hs hstep _ ih =>
    cases h' with
    | stops hs' => exact absurd (hs.symm.trans hs') nofun
    | fails _ hstep' => exact absurd (hstep.symm.trans hstep') nofun
    | goesOn _ hstep' h' =>
      obtain rfl := (Prod.mk.inj (Except.ok.inj (hstep.symm.trans hstep'))).1
      obtain ⟨rfl, rfl⟩ := ih h'
      exact ⟨rfl, rfl⟩

/-- A run steps only where it does not end. -/
theorem stop_of_mem (h : Loop stop s passed result) : ∀ u ∈ passed, stop u = none := by
  induction h with
  | stops _ => exact List.forall_mem_nil _
  | fails hs _ => exact List.forall_mem_singleton.2 hs
  | goesOn hs _ _ ih => exact List.forall_mem_cons.2 ⟨hs, ih⟩

/-- **What holds where a run ends, and is carried back over each of its steps, holds where the run
begins.** -/
theorem of_ends {motive : Simulation φ → List (Simulation φ) → Prop}
    (h : Loop stop s passed (.ok (t, reached))) (ends : stop t = some reached → motive t [])
    (steps : ∀ {u v : Simulation φ} {remarks : List Remark} {passed : List (Simulation φ)},
      stop u = none → u.step = .ok (v, remarks) → motive v passed → motive u (u :: passed)) :
    motive s passed := by
  generalize hresult : Except.ok (t, reached) = result at h
  induction h with
  | stops hs =>
    obtain ⟨rfl, rfl⟩ := Prod.mk.inj (Except.ok.inj hresult)
    exact ends hs
  | fails => exact absurd hresult nofun
  | goesOn hs hstep _ ih => exact steps hs hstep (ih hresult)

/-- A run ends where it is to end. -/
theorem stop_last (h : Loop stop s passed (.ok (t, reached))) : stop t = some reached :=
  h.of_ends (motive := fun _ _ => stop t = some reached) id fun _ _ => id

/-- **A run that may take as many steps as it needs is not given up.** -/
theorem tells (h : Loop stop s passed result) {fuel : Nat} (enough : passed.length ≤ fuel)
    (remarks : List Remark) : Tells (advance stop fuel s remarks) result := by
  induction h generalizing fuel remarks with
  | stops hs =>
    rw [advance_of_some hs]
    rfl
  | fails hs hstep =>
    obtain ⟨fuel, rfl⟩ := Nat.exists_eq_add_of_le' enough
    rw [List.length_singleton, advance_of_error hs hstep]
    rfl
  | goesOn hs hstep _ ih =>
    obtain ⟨fuel, rfl⟩ := Nat.exists_eq_add_of_le' enough
    rw [List.length_cons, ← Nat.add_assoc, advance_of_ok hs hstep]
    exact ih (Nat.le_add_left _ _) _

/-- **A run of nodes that have room does not fail.** -/
theorem exists_ok (h : Loop stop s passed result) (roomy : s.Roomy) : ∃ p, result = .ok p := by
  induction h with
  | stops _ => exact ⟨_, rfl⟩
  | fails _ hstep =>
    obtain ⟨p, hp⟩ := roomy.exists_step
    exact absurd (hstep.symm.trans hp) nofun
  | goesOn _ hstep _ ih => exact ih (roomy.of_step hstep)

end Loop

/-! ## The number of steps -/

/-- A length is rounded up to one piece more than what is left when the first piece is taken. -/
theorem ceilDiv_eq_succ {length piece : Nat} (hlength : 0 < length) (hpiece : 0 < piece) :
    length ⌈/⌉ piece = (length - piece) ⌈/⌉ piece + 1 := by
  have hfirst : length + piece - 1 = length - 1 + piece := by omega
  rw [Nat.ceilDiv_eq_add_pred_div, Nat.ceilDiv_eq_add_pred_div, hfirst,
    Nat.add_div_right _ hpiece]
  refine congrArg (· + 1) ?_
  rcases Nat.le_total piece length with h | h
  · rw [Nat.sub_add_cancel h]
  · rw [Nat.sub_eq_zero_of_le h, Nat.zero_add, Nat.div_eq_of_lt (by omega),
      Nat.div_eq_of_lt (by omega)]

/-- The ticks that it takes the clock to get to `limit`. -/
def ticksTo (s : Simulation φ) (limit : Timestamp) : Nat :=
  (limit.millis - s.now.millis) ⌈/⌉ s.tick.wholeMillis

omit [DropFilter φ] in
/-- No tick is needed once the limit has been reached. -/
theorem ticksTo_eq_zero_iff (moving : 1 ≤ s.tick.wholeMillis) :
    s.ticksTo limit = 0 ↔ ¬s.now < limit := by
  constructor
  · intro hzero early
    rw [ticksTo, ceilDiv_eq_succ (Nat.sub_pos_of_lt early) moving] at hzero
    exact Nat.succ_ne_zero _ hzero
  · intro late
    rw [ticksTo, Nat.sub_eq_zero_of_le (Nat.not_lt.1 late), zero_ceilDiv]

/-- **Each step before `limit` takes one tick off the way to it.** -/
theorem ticksTo_of_step (moving : 1 ≤ s.tick.wholeMillis) (h : s.step = .ok (t, remarks))
    (early : s.now < limit) : s.ticksTo limit = t.ticksTo limit + 1 := by
  have hleft : limit.millis - t.now.millis =
      limit.millis - s.now.millis - s.tick.wholeMillis := by
    have hlimit := limit.bounded
    rw [now_of_step h, Timestamp.millis_after]
    omega
  rw [ticksTo, ticksTo, tick_of_step h, hleft]
  exact ceilDiv_eq_succ (Nat.sub_pos_of_lt early) moving

omit [DropFilter φ] in
/-- A run may take more steps than there are ticks. -/
theorem ticksTo_le_budget (moving : 1 ≤ s.tick.wholeMillis) (limit : Timestamp) :
    s.ticksTo limit ≤ s.budget limit := by
  have hceil : s.ticksTo limit ≤ limit.millis - s.now.millis := by
    rw [ticksTo, ceilDiv_le_iff_le_mul moving]
    exact Nat.le_mul_of_pos_left _ moving
  exact Nat.le_trans hceil (Nat.le_add_right _ _)

omit [DropFilter φ] in
/-- The time of a run is told by the whole milliseconds of its length and its tick, unless the clock
cannot show its end. -/
theorem ticksTo_after {d : Duration} (h : s.now.millis + d.wholeMillis ≤ Duration.maxMillis) :
    s.ticksTo (s.now.after d) = d.wholeMillis ⌈/⌉ s.tick.wholeMillis := by
  rw [ticksTo, Timestamp.millis_after, Nat.min_eq_left h, Nat.add_sub_cancel_left]

namespace Loop

/-- **A run that goes on before `limit` only takes no more steps than there are ticks.** -/
theorem length_le (h : Loop stop s passed result) (moving : 1 ≤ s.tick.wholeMillis)
    (timely : ∀ u, stop u = none → u.now < limit) : passed.length ≤ s.ticksTo limit := by
  -- Each step uses up one of the ticks that are left.
  induction h with
  | stops _ => exact Nat.zero_le _
  | fails hs _ =>
    have hticks := (ticksTo_eq_zero_iff moving).not.2 (not_not.2 (timely _ hs))
    exact Nat.one_le_iff_ne_zero.2 hticks
  | goesOn hs hstep _ ih =>
    rw [ticksTo_of_step moving hstep (timely _ hs)]
    exact Nat.succ_le_succ (ih (tick_of_step hstep ▸ moving))

/-- **A run that waits for the clock takes a step for each tick.** -/
theorem length_eq (h : Loop (timeIsUp limit) s passed (.ok (t, reached)))
    (moving : 1 ≤ s.tick.wholeMillis) : passed.length = s.ticksTo limit := by
  refine h.of_ends (motive := fun s passed => 1 ≤ s.tick.wholeMillis →
    passed.length = s.ticksTo limit) (fun hs moving => ?_) (fun hs hstep ih moving => ?_) moving
  · refine ((ticksTo_eq_zero_iff moving).2 fun early => ?_).symm
    exact absurd (hs.symm.trans (timeIsUp_eq_none_iff.2 early)) nofun
  · rw [ticksTo_of_step moving hstep (timeIsUp_eq_none_iff.1 hs), List.length_cons,
      ih (tick_of_step hstep ▸ moving)]

end Loop

/-- **A run that goes on before `limit` only comes to an end.** -/
theorem exists_loop (s : Simulation φ) (moving : 1 ≤ s.tick.wholeMillis)
    (timely : ∀ u, stop u = none → u.now < limit) : ∃ passed result, Loop stop s passed result := by
  -- A run has no structure to go by before it exists: what falls is the number of ticks left.
  induction hn : s.ticksTo limit using Nat.strong_induction_on generalizing s with
  | h n ih =>
    cases hs : stop s with
    | some reached => exact ⟨_, _, .stops hs⟩
    | none =>
      cases hstep : s.step with
      | error e => exact ⟨_, _, .fails hs hstep⟩
      | ok p =>
        obtain ⟨t, remarks⟩ := p
        have hticks := ticksTo_of_step moving hstep (timely s hs)
        obtain ⟨passed, result, h⟩ := ih (t.ticksTo limit) (by omega) t
          (tick_of_step hstep ▸ moving) rfl
        exact ⟨_, _, .goesOn hs hstep h⟩

/-- **With a tick of less than a millisecond the clock stands still.** -/
theorem Loop.of_still (h : Loop stop s passed (.ok (t, reached)))
    (still : s.tick.wholeMillis = 0) : t.now = s.now := by
  refine h.of_ends (motive := fun s _ => s.tick.wholeMillis = 0 → t.now = s.now) (fun _ _ => rfl)
    (fun {u v _ _} _ hstep ih still => ?_) still
  have hnow : u.now.after u.tick = u.now := by
    rw [Timestamp.ext_iff, Timestamp.millis_after, still]
    exact Nat.min_eq_left u.now.bounded
  rw [ih (tick_of_step hstep ▸ still), now_of_step hstep, hnow]

/-- **A run steps from no simulation in which its goal is reached.** -/
theorem Loop.goal_of_mem (h : Loop (goalOrTimeIsUp goal limit) s passed result) :
    ∀ u ∈ passed, goal u = false := by
  intro u hu
  exact (goalOrTimeIsUp_eq_none_iff.1 (h.stop_of_mem u hu)).1

/-- **A run tells whether its goal has held** where it has looked: in what it has stepped from, and
in the end. -/
theorem Loop.reached_iff (h : Loop (goalOrTimeIsUp goal limit) s passed (.ok (t, reached))) :
    reached = true ↔ ∃ u ∈ passed ++ [t], goal u = true := by
  rw [← goal_of_goalOrTimeIsUp h.stop_last]
  constructor
  · intro hgoal
    exact ⟨t, List.mem_append_right _ (List.mem_singleton_self t), hgoal⟩
  · rintro ⟨u, hu, hgoal⟩
    rcases List.mem_append.1 hu with hu | hu
    · exact absurd ((h.goal_of_mem u hu).symm.trans hgoal) nofun
    · rwa [← List.mem_singleton.1 hu]

/-- **A run that goes on before `limit` only has a result**, which is told after no more steps than
there are ticks. -/
theorem exists_told (s : Simulation φ) (moving : 1 ≤ s.tick.wholeMillis)
    (timely : ∀ u, stop u = none → u.now < limit) : ∃ passed result, Loop stop s passed result ∧
      Tells (advance stop (s.budget limit) s []) result ∧ passed.length ≤ s.ticksTo limit := by
  obtain ⟨passed, result, h⟩ := exists_loop s moving timely
  have hsteps := h.length_le moving timely
  exact ⟨passed, result, h, h.tells (Nat.le_trans hsteps (ticksTo_le_budget moving limit)) [],
    hsteps⟩

/-- A run that waits for the clock ends exactly if the clock moves, or there is nothing to wait
for. -/
theorem exists_loop_timeIsUp_iff (roomy : s.Roomy) :
    (∃ passed t, Loop (timeIsUp limit) s passed (.ok (t, true))) ↔
      1 ≤ s.tick.wholeMillis ∨ ¬s.now < limit := by
  constructor
  · rintro ⟨passed, t, h⟩
    rcases Nat.eq_zero_or_pos s.tick.wholeMillis with still | moving
    · right
      intro early
      rw [← h.of_still still, ← timeIsUp_eq_none_iff] at early
      exact absurd (early.symm.trans h.stop_last) nofun
    · exact Or.inl moving
  · rintro (moving | late)
    · obtain ⟨passed, result, h⟩ := exists_loop s moving fun _ => timeIsUp_eq_none_iff.1
      obtain ⟨⟨t, reached⟩, rfl⟩ := h.exists_ok roomy
      obtain rfl := reached_of_timeIsUp h.stop_last
      exact ⟨passed, t, h⟩
    · exact ⟨[], s, .stops (if_neg late)⟩

/-- Where the clock stands still, a run that waits for a goal does not find that its time is up. -/
theorem Loop.goal_of_still (h : Loop (goalOrTimeIsUp goal limit) s passed (.ok (t, reached)))
    (still : s.tick.wholeMillis = 0) (early : s.now < limit) : goal t = true := by
  refine (Bool.eq_false_or_eq_true (goal t)).resolve_right fun hgoal => ?_
  rw [← h.of_still still] at early
  exact absurd ((goalOrTimeIsUp_eq_none_iff.2 ⟨hgoal, early⟩).symm.trans h.stop_last) nofun

end Simulation

open Simulation in
/-- **Simulated time gets there if a tick has a millisecond, and only then.**  With a tick of a
millisecond or more every run ends, is not given up, and takes no more steps than there are ticks up
to its limit.  A run for a stretch of time takes exactly so many unless a step fails: the whole
milliseconds of the stretch by those of the tick, rounded up, if the clock can show the end of the
stretch.  A run for a goal does not step once the goal holds, and tells whether it has held where
the run has looked.  No step fails where every node has room for the longest delays, and then a run
for a stretch of time ends exactly if the clock moves or there is nothing to wait for; where the
clock stands still, a run for a goal ends with the goal or not at all. -/
theorem simulated_time {φ : Type} [DropFilter φ] (s : Simulation φ) (d : Duration)
    (goal : Simulation φ → Bool) :
    (1 ≤ s.tick.wholeMillis →
      (∃ passed result, Loop (timeIsUp (s.now.after d)) s passed result ∧
        Tells (s.runFor d) result ∧ passed.length ≤ s.ticksTo (s.now.after d) ∧
        ∀ t reached, result = .ok (t, reached) →
          reached = true ∧ passed.length = s.ticksTo (s.now.after d)) ∧
      ∃ passed result, Loop (goalOrTimeIsUp goal (s.now.after d)) s passed result ∧
        Tells (s.runUntil d goal) result ∧ passed.length ≤ s.ticksTo (s.now.after d) ∧
        (∀ u ∈ passed, goal u = false) ∧
        ∀ t reached, result = .ok (t, reached) →
          (reached = true ↔ ∃ u ∈ passed ++ [t], goal u = true)) ∧
    (s.now.millis + d.wholeMillis ≤ Duration.maxMillis →
      s.ticksTo (s.now.after d) = d.wholeMillis ⌈/⌉ s.tick.wholeMillis) ∧
    (s.Roomy →
      (∀ stop passed result, Loop stop s passed result → ∃ p, result = .ok p) ∧
      ((∃ passed t, Loop (timeIsUp (s.now.after d)) s passed (.ok (t, true))) ↔
        1 ≤ s.tick.wholeMillis ∨ ¬s.now < s.now.after d)) ∧
    (s.tick.wholeMillis = 0 → s.now < s.now.after d → ∀ passed t reached,
      Loop (goalOrTimeIsUp goal (s.now.after d)) s passed (.ok (t, reached)) →
        goal t = true ∧ reached = true) := by
  refine ⟨fun moving => ⟨?_, ?_⟩, ticksTo_after, fun roomy => ⟨?_, ?_⟩, ?_⟩
  · have timely (u : Simulation φ) (hu : timeIsUp (s.now.after d) u = none) :
        u.now < s.now.after d := timeIsUp_eq_none_iff.1 hu
    obtain ⟨passed, result, h, htells, hsteps⟩ := exists_told s moving timely
    refine ⟨passed, result, h, htells, hsteps, ?_⟩
    rintro t reached rfl
    exact ⟨reached_of_timeIsUp h.stop_last, h.length_eq moving⟩
  · have timely (u : Simulation φ) (hu : goalOrTimeIsUp goal (s.now.after d) u = none) :
        u.now < s.now.after d := (goalOrTimeIsUp_eq_none_iff.1 hu).2
    obtain ⟨passed, result, h, htells, hsteps⟩ := exists_told s moving timely
    refine ⟨passed, result, h, htells, hsteps, h.goal_of_mem, ?_⟩
    rintro t reached rfl
    exact h.reached_iff
  · intro stop passed result h
    exact h.exists_ok roomy
  · exact exists_loop_timeIsUp_iff roomy
  · intro still early passed t reached h
    have hgoal := h.goal_of_still still early
    exact ⟨hgoal, (goal_of_goalOrTimeIsUp h.stop_last).symm.trans hgoal⟩

theorem isSome_switchedOn? : ((Simulation.ofSeed [⟨1⟩, ⟨2⟩] {} 0 :
    Simulation (List DropRule)).powerOn ⟨1⟩).toOption.isSome = true := by decide

/-- Two nodes, the first one switched on. -/
def lonely : Simulation (List DropRule) := (Option.get _ isSome_switchedOn?).2

/-- There is room in the network of one node. -/
theorem roomy_lonely : lonely.Roomy := by
  have hon := Station.eq_ok_of_toOption (Option.some_get isSome_switchedOn?).symm
  exact (Simulation.fresh_ofSeed _ _ _).roomy.powerOn ⟨by decide, by decide⟩ hon

/-- The same with a tick of a quarter of a millisecond. -/
def stalled : Simulation (List DropRule) := { lonely with tick := ⟨250000, by decide⟩ }

open Simulation in
/-- **Three steps make 120 ms**, each of which takes 50 ms, while steps of a quarter of a millisecond
take nobody anywhere. -/
theorem simulated_time_of_lonely : 1 ≤ lonely.tick.wholeMillis ∧ lonely.Roomy ∧
    (∃ passed t, Loop (timeIsUp (lonely.now.after (.ofMillis 120))) lonely passed (.ok (t, true)) ∧
      passed.length = 3) ∧
    stalled.tick.wholeMillis = 0 ∧ stalled.now < stalled.now.after (.ofMillis 1) ∧
    ∀ passed t reached, ¬Loop (goalOrTimeIsUp (fun _ => false) (stalled.now.after (.ofMillis 1)))
      stalled passed (.ok (t, reached)) := by
  have moving : 1 ≤ lonely.tick.wholeMillis := by decide
  obtain ⟨hends, hticks, hroomy, -⟩ := simulated_time lonely (.ofMillis 120) (fun _ => false)
  obtain ⟨-, -, -, hstill⟩ := simulated_time stalled (.ofMillis 1) (fun _ => false)
  obtain ⟨⟨passed, result, h, -, -, hsteps⟩, -⟩ := hends moving
  obtain ⟨⟨t, reached⟩, rfl⟩ := (hroomy roomy_lonely).1 _ _ _ h
  obtain ⟨rfl, hlength⟩ := hsteps t reached rfl
  rw [hticks (by decide)] at hlength
  refine ⟨moving, roomy_lonely, ⟨passed, t, h, hlength⟩, by decide, by decide, ?_⟩
  intro passed t reached h
  exact Bool.false_ne_true (hstill (by decide) (by decide) passed t reached h).1

open Simulation in
/-- **A run for a millisecond need not end**: with a tick of a quarter of it, it does not. -/
theorem not_simulated_time : ¬∀ (s : Simulation (List DropRule)) (d : Duration), s.Roomy →
    ∃ passed t reached, Loop (timeIsUp (s.now.after d)) s passed (.ok (t, reached)) := by
  intro h
  obtain ⟨passed, t, reached, h⟩ := h stalled (.ofMillis 1) roomy_lonely
  obtain rfl := reached_of_timeIsUp h.stop_last
  have hends := (exists_loop_timeIsUp_iff (s := stalled) roomy_lonely).1 ⟨passed, t, h⟩
  exact absurd hends (by decide)

end RadioRing
