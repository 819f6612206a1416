import Mathlib.Data.List.Chain
import RadioRing.Proofs.Mastership

/-!
# Proofs/Pulse — a master is never silent for long

A master repeats its payload until it is echoed and its offer until it is taken, so what separates
two of its frames is one of two timers (`Settings.pause`) and the steps it takes meanwhile: one that
finds the timer elapsed, one that finds the turn over, and one that sends.  `Node.InPulse` says how
far each state of a master can be behind its last attempt to send, **every step keeps it**
(`Acts.inPulse`), and a run of steps that follow one another within `D` milliseconds is never silent
for longer than the pause and three such steps (`master_never_silent`).
-/

namespace RadioRing

/-- The longest time, in milliseconds, that a master lets pass before it sends again. -/
def Settings.pause (s : Settings) : Nat :=
  max s.timings.retry.wholeMillis s.timings.offerRetry.wholeMillis

/-- A deadline is never later than it was armed for. -/
theorem Deadline.millis_after_le (now : Timestamp) (d : Duration) :
    (after now d).moment.millis ≤ now.millis + d.wholeMillis :=
  Nat.min_le_left _ _

/-- Nothing is armed on the way into a turn or through it. -/
theorem State.armed_of_isMaster {s : State} (h : s.isMaster = true) : s.armed = [] := by
  cases s with
  | awaitingEcho | repeating | offering | awaitingTaker => rfl
  | _ => exact absurd h nofun

namespace Node

variable {n n' : Node} {clock : Readings} {heard : Option Inbound} {e : Option Emission}
  {t : Transition} {P D last now : Nat}

/-- How far a master can be, at the time `now` of a step, from its attempt to send at `last`: it
waits no longer than `P`, and it is one step of `D` late when it repeats the payload and two when it
offers the token, since the turn can be over before the payload is repeated. -/
def InPulse (n : Node) (P D last now : Nat) : Prop :=
  last ≤ now ∧ match n.state with
    | .awaitingEcho => n.timers.retry.moment.millis ≤ last + P ∧ now ≤ last + P
    | .repeating => now ≤ last + P + D
    | .offering => now ≤ last + P + 2 * D
    | .awaitingTaker _ => n.timers.offerRetry.moment.millis ≤ last + P ∧ now ≤ last + P
    | _ => True

theorem inPulse_awaitingEcho (hs : n.state = .awaitingEcho) : n.InPulse P D last now ↔
    last ≤ now ∧ n.timers.retry.moment.millis ≤ last + P ∧ now ≤ last + P := by
  rw [InPulse, hs]

theorem inPulse_repeating (hs : n.state = .repeating) :
    n.InPulse P D last now ↔ last ≤ now ∧ now ≤ last + P + D := by
  rw [InPulse, hs]

theorem inPulse_offering (hs : n.state = .offering) :
    n.InPulse P D last now ↔ last ≤ now ∧ now ≤ last + P + 2 * D := by
  rw [InPulse, hs]

theorem inPulse_awaitingTaker {taker : Address} (hs : n.state = .awaitingTaker taker) :
    n.InPulse P D last now ↔ last ≤ now ∧
      n.timers.offerRetry.moment.millis ≤ last + P ∧ now ≤ last + P := by
  rw [InPulse, hs]

theorem inPulse_of_not_isMaster (h : n.state.isMaster = false) (hle : last ≤ now) :
    n.InPulse P D last now := by
  refine ⟨hle, ?_⟩
  cases hs : n.state <;> rw [hs] at h <;> trivial

/-- **A master that keeps in pulse is at most two steps late.** -/
theorem InPulse.le (h : n.InPulse P D last now) (hs : n.state.isMaster = true) :
    now ≤ last + P + 2 * D := by
  cases hstate : n.state with
  | awaitingEcho =>
    have hnow := ((inPulse_awaitingEcho hstate).1 h).2.2
    omega
  | repeating =>
    have hnow := ((inPulse_repeating hstate).1 h).2
    omega
  | offering => exact ((inPulse_offering hstate).1 h).2
  | awaitingTaker taker =>
    have hnow := ((inPulse_awaitingTaker hstate).1 h).2.2
    omega
  | _ =>
    rw [hstate] at hs
    exact absurd hs nofun

/-- Only the state and, of a master, the timers matter. -/
theorem InPulse.congr (h : n.InPulse P D last now) (state : n'.state = n.state)
    (timers : n.state.isMaster = true → n'.timers = n.timers) : n'.InPulse P D last now := by
  cases hmaster : n.state.isMaster with
  | false => exact inPulse_of_not_isMaster (state ▸ hmaster) h.1
  | true =>
    unfold InPulse at h ⊢
    rwa [state, timers hmaster]

/-- A step that is taken at `start` keeps in pulse: after an attempt to send the time counts from
`start`, and from the last attempt otherwise. -/
def KeepsPulse (n' : Node) (e : Option Emission) (P D last start : Nat) : Prop :=
  (e = none → n'.InPulse P D last start) ∧ (e ≠ none → n'.InPulse P D start start)

theorem keepsPulse_none (h : n'.InPulse P D last now) : n'.KeepsPulse none P D last now :=
  ⟨fun _ => h, absurd rfl⟩

theorem keepsPulse_some {x : Emission} (h : n'.InPulse P D now now) :
    n'.KeepsPulse (some x) P D last now :=
  ⟨nofun, fun _ => h⟩

/-- **What a holder hears keeps it in pulse**: it answers an offer, or its timer runs on. -/
theorem HolderHears.keepsPulse {m : Inbound} {start : Timestamp} (h : n.HolderHears m n' e t)
    (hn : n.InPulse P D last now) (state : n.state = .awaitingEcho) (after : now ≤ start.millis)
    (early : n.timers.retry.elapsed start = false) :
    ({ n' with state := t.next } : Node).KeepsPulse e P D last start.millis := by
  obtain ⟨hle, hretry, hnow⟩ := (inPulse_awaitingEcho state).1 hn
  rw [Deadline.elapsed_eq_false_iff] at early
  cases h with
  | echoed => exact keepsPulse_none ((inPulse_offering rfl).2 ⟨by omega, by omega⟩)
  | garbled => exact keepsPulse_none ((inPulse_repeating rfl).2 ⟨by omega, by omega⟩)
  | offered =>
    exact keepsPulse_some
      ((inPulse_awaitingEcho rfl).2 ⟨Nat.le_refl _, by dsimp only; omega, by omega⟩)
  | yields => exact keepsPulse_none (inPulse_of_not_isMaster rfl (by omega))
  | stays => exact keepsPulse_none ((inPulse_awaitingEcho rfl).2 ⟨by omega, hretry, by omega⟩)

/-- **What a giver hears keeps it in pulse**: it answers an outdated offer, or its timer runs on. -/
theorem GiverHears.keepsPulse {m : Inbound} {taker : Address} {start : Timestamp}
    (h : n.GiverHears taker m n' e t) (hn : n.InPulse P D last now)
    (state : n.state = .awaitingTaker taker) (after : now ≤ start.millis)
    (early : n.timers.offerRetry.elapsed start = false) :
    ({ n' with state := t.next } : Node).KeepsPulse e P D last start.millis := by
  obtain ⟨hle, hretry, hnow⟩ := (inPulse_awaitingTaker state).1 hn
  rw [Deadline.elapsed_eq_false_iff] at early
  cases h with
  | waits => exact keepsPulse_none ((inPulse_awaitingTaker rfl).2 ⟨by omega, hretry, by omega⟩)
  | releases =>
    exact keepsPulse_some
      ((inPulse_awaitingTaker rfl).2 ⟨Nat.le_refl _, by dsimp only; omega, by omega⟩)
  | handsOff | drops => exact keepsPulse_none (inPulse_of_not_isMaster rfl (by omega))

/-- **A master that waits keeps in pulse**: its timer runs on. -/
theorem InPulse.of_waiting (hn : n.InPulse P D last now) (waits : n.state.isWaiting = true)
    {start : Timestamp} (after : now ≤ start.millis)
    (early : ∀ d ∈ n.awaited?, d.elapsed start = false) : n.InPulse P D last start.millis := by
  have hle : last ≤ now := hn.1
  cases hs : n.state with
  | awaitingEcho =>
    obtain ⟨-, hretry, -⟩ := (inPulse_awaitingEcho hs).1 hn
    have hearly := early _ (by rw [awaited?, hs]; rfl)
    rw [Deadline.elapsed_earlier, Bool.or_eq_false_iff, Deadline.elapsed_eq_false_iff,
      Deadline.elapsed_eq_false_iff] at hearly
    exact (inPulse_awaitingEcho hs).2 ⟨by omega, hretry, by omega⟩
  | awaitingTaker taker =>
    obtain ⟨-, hretry, -⟩ := (inPulse_awaitingTaker hs).1 hn
    have hearly := early _ (by rw [awaited?, hs]; rfl)
    rw [Deadline.elapsed_eq_false_iff] at hearly
    exact (inPulse_awaitingTaker hs).2 ⟨by omega, hretry, by omega⟩
  | repeating | offering =>
    rw [hs] at waits
    exact absurd waits Bool.false_ne_true
  | _ => exact inPulse_of_not_isMaster (by rw [hs]; rfl) (by omega)

/-- **Every step of a master keeps it in pulse**, if it comes within `D` of the one before. -/
theorem Acts.keepsPulse (h : n.Acts clock heard n' e t) (hn : n.InPulse P D last now)
    (pause : n.settings.pause ≤ P) (after : now ≤ clock.start.millis)
    (within : clock.start.millis ≤ now + D) (busy : n.state.isMaster = true ∨ n.state = .speaking)
    (offered : ∀ taker, n.state = .awaitingTaker taker → n.offer ≠ none) :
    ({ n' with state := t.next } : Node).KeepsPulse e P D last clock.start.millis := by
  have hle : last ≤ now := hn.1
  have hretry : (Deadline.after clock.start n.settings.timings.retry).moment.millis ≤
      clock.start.millis + P :=
    Nat.le_trans (Deadline.millis_after_le ..)
      (Nat.add_le_add_left (Nat.le_trans (Nat.le_max_left _ _) pause) _)
  have hofferRetry : (Deadline.after clock.start n.settings.timings.offerRetry).moment.millis ≤
      clock.start.millis + P :=
    Nat.le_trans (Deadline.millis_after_le ..)
      (Nat.add_le_add_left (Nat.le_trans (Nat.le_max_right _ _) pause) _)
  have idle {s : State} {R : Prop} (hs : n.state = s) (hmaster : s.isMaster = false)
      (hspeaking : s ≠ .speaking) : R := by
    rw [hs, hmaster] at busy
    exact (busy.elim nofun hspeaking).elim
  cases h with
  | asks state | asksAgain state | stopsAsking state | joins state | founds state | forgets state
  | admits state | rescans state | hearsAlone state | claimsUnopposed state | claims state
  | passesOver state | hearsListening state | acknowledges state | accepts state =>
    exact idle state rfl nofun
  | waitsToReply state =>
    refine idle rfl (State.isMaster_of_isReplying state) fun hs => ?_
    rw [hs] at state
    exact absurd state nofun
  | speaks | repeats =>
    exact keepsPulse_some
      ((inPulse_awaitingEcho rfl).2 ⟨Nat.le_refl _, hretry, Nat.le_add_right _ _⟩)
  | endsTurn state =>
    have hlate : now ≤ last + P + D := by
      rcases state with state | state
      · have := ((inPulse_awaitingEcho state).1 hn).2.2
        omega
      · exact ((inPulse_repeating state).1 hn).2
    exact keepsPulse_none ((inPulse_offering rfl).2 ⟨by omega, by omega⟩)
  | turnsToRepeat state =>
    have hlate := ((inPulse_awaitingEcho state).1 hn).2.2
    exact keepsPulse_none ((inPulse_repeating rfl).2 ⟨by omega, by omega⟩)
  | hearsHolding state _ soon _ makes => exact makes.keepsPulse hn state after soon
  | strays | findsNobody => exact keepsPulse_none (inPulse_of_not_isMaster rfl (by omega))
  | offers =>
    exact keepsPulse_some
      ((inPulse_awaitingTaker rfl).2 ⟨Nat.le_refl _, hofferRetry, Nat.le_add_right _ _⟩)
  | offersAgain state =>
    obtain ⟨m, hm⟩ := Option.ne_none_iff_exists'.1 (offered _ state)
    rw [hm]
    exact keepsPulse_some
      ((inPulse_awaitingTaker rfl).2 ⟨Nat.le_refl _, hofferRetry, Nat.le_add_right _ _⟩)
  | stopsOffering state =>
    have hlate := ((inPulse_awaitingTaker state).1 hn).2.2
    exact keepsPulse_none ((inPulse_offering rfl).2 ⟨by omega, by omega⟩)
  | hearsGiving state early _ makes => exact makes.keepsPulse hn state after early
  | idles state early => exact keepsPulse_none (hn.of_waiting state after early)

end Node

namespace Moment

variable {α : Type} {x y : Moment α} {P D last now : Nat}

/-- The step asks the radio to send a frame, whatever becomes of it. -/
def Attempts (x : Moment α) : Prop := x.reaction.emission ≠ none

/-- The step `y` comes after the step `x`, and within `D` milliseconds of it. -/
def Follows (D : Nat) (x y : Moment α) : Prop :=
  x.clock.start ≤ y.clock.start ∧ y.clock.start.millis ≤ x.clock.start.millis + D

instance : Decidable x.Attempts := inferInstanceAs (Decidable (x.reaction.emission ≠ none))

instance : Decidable (x.Follows D y) := inferInstanceAs (Decidable (_ ∧ _))

variable [Application α]

/-- **Every moment keeps the pulse**, if it comes no later than it should. -/
theorem Happens.keepsPulse (h : x.Happens) (hs : x.before.Reachable)
    (hn : x.before.node.InPulse P D last now) (pause : x.before.node.settings.pause ≤ P)
    (after : now ≤ x.clock.start.millis) (within : x.clock.start.millis ≤ now + D)
    (busy : x.before.node.state.isMaster = true ∨ x.before.node.state = .speaking) :
    x.after.node.KeepsPulse x.reaction.emission P D last x.clock.start.millis := by
  have offered (taker : Address) (hstate : x.before.node.state = .awaitingTaker taker) :
      x.before.node.offer ≠ none := by
    obtain ⟨session, -, hoffer⟩ := (hs.offers hstate).offer
    rw [hoffer]
    nofun
  obtain ⟨hsilent, hattempts⟩ := h.acts.keepsPulse hn pause after within busy offered
  have htimers (hmaster : x.reaction.transition.next.isMaster = true) :
      x.after.node.timers = x.reaction.node.timers :=
    h.timers_after (Or.inr (State.armed_of_isMaster hmaster))
  exact ⟨fun he => (hsilent he).congr h.state_after htimers,
    fun he => (hattempts he).congr h.state_after htimers⟩

/-- **A turn begins with an attempt to send.** -/
theorem Happens.attempts_of_speaking (h : x.Happens) (hs : x.before.node.state = .speaking) :
    x.Attempts := by
  have hreact := h.steps.reacts
  unfold Node.react at hreact
  rw [hs] at hreact
  obtain hr := Except.ok.inj hreact
  unfold Attempts
  rw [← hr]
  nofun

end Moment

namespace Station

variable {α : Type} [Application α] {t : Station α} {y : Moment α} {late : List (Moment α)}
  {P D last : Nat}

/-- **A mastership keeps in pulse** up to any of its steps, which follows the one before; the last
attempt to send is the one before the stretch if the stretch is silent. -/
theorem Run.inPulse (early : List (Moment α)) : ∀ {x : Moment α} {last : Nat}, x.after.Reachable →
    x.after.Run (early ++ y :: late) t →
    (x :: (early ++ y :: late)).IsChain (Moment.Follows D) →
    (∀ z ∈ early, z.before.node.master = true) → x.after.node.settings.pause ≤ P →
    x.after.node.InPulse P D last x.clock.start.millis →
    ∃ (w : Moment α) (last' : Nat), w.Follows D y ∧
      y.before.node.InPulse P D last' w.clock.start.millis ∧ y.before.Reachable ∧
      y.before.node.settings.pause ≤ P ∧
      ((∀ z ∈ early, ¬z.Attempts) → last' = last) := by
  -- On the moments from the first one on: an attempt starts the count anew for all that follow.
  induction early with
  | nil =>
    intro x last hs hrun steady _ pause hn
    obtain ⟨hbefore, -, -⟩ := hrun.of_cons
    obtain ⟨hfollows, -⟩ := List.isChain_cons_cons.1 steady
    exact ⟨x, last, hfollows, hbefore ▸ hn, hbefore ▸ hs, hbefore ▸ pause, fun _ => rfl⟩
  | cons z rest ih =>
    intro x last hs hrun steady master pause hn
    obtain ⟨hbefore, hz, hrest⟩ := hrun.of_cons
    obtain ⟨⟨after, within⟩, hsteady⟩ := List.isChain_cons_cons.1 steady
    obtain ⟨hmaster, hmasters⟩ := List.forall_mem_cons.1 master
    rw [← hbefore] at hs hn pause
    have busy : z.before.node.state.isMaster = true := by
      rw [← (sound_of_reachable hs).master, hmaster]
    obtain ⟨hsilent, hattempts⟩ := hz.keepsPulse hs hn pause after within (Or.inl busy)
    have hpause : z.after.node.settings.pause ≤ P := by rwa [hz.settings_after]
    by_cases attempts : z.Attempts
    · obtain ⟨w, last', hw, hy, hreach, hyP, -⟩ :=
        ih (hs.moment hz) hrest hsteady hmasters hpause (hattempts attempts)
      exact ⟨w, last', hw, hy, hreach, hyP,
        fun silent => absurd attempts (silent z List.mem_cons_self)⟩
    · obtain ⟨w, last', hw, hy, hreach, hyP, hlast⟩ :=
        ih (hs.moment hz) hrest hsteady hmasters hpause (hsilent (Decidable.not_not.1 attempts))
      exact ⟨w, last', hw, hy, hreach, hyP,
        fun silent => hlast fun z' hz' => silent z' (List.mem_cons_of_mem _ hz')⟩

/-- **From an attempt to send, the silence is short**, as long as the node is master. -/
theorem Run.silence_le {x y : Moment α} {quiet : List (Moment α)} (hs : x.after.Reachable)
    (hrun : x.after.Run (quiet ++ y :: late) t)
    (steady : (x :: (quiet ++ y :: late)).IsChain (Moment.Follows D))
    (master : ∀ z ∈ quiet ++ [y], z.before.node.master = true)
    (pause : x.after.node.settings.pause ≤ P)
    (pulse : x.after.node.InPulse P D x.clock.start.millis x.clock.start.millis)
    (silent : ∀ z ∈ quiet, ¬z.Attempts) :
    y.clock.start.millis ≤ x.clock.start.millis + P + 3 * D := by
  obtain ⟨hquiet, hy⟩ := List.forall_mem_append.1 master
  obtain ⟨w, last, ⟨-, within⟩, hn, hreach, -, hlast⟩ :=
    hrun.inPulse quiet hs steady hquiet pause pulse
  obtain rfl := hlast silent
  have hmaster : y.before.node.state.isMaster = true := by
    rw [← (sound_of_reachable hreach).master, List.forall_mem_singleton.1 hy]
  have hle := hn.le hmaster
  omega

end Station

/-- **A master is never silent for long.**  A turn begins with a step that sends a payload, and the
node is master in all steps after it, each of which follows the one before within `D` milliseconds,
whatever the node hears and whatever becomes of its frames.  The first step attempts to send, and
every step of the turn, the next attempt and the one that ends the mastership among them, comes
within the longer of the two pauses and `3 * D` of the last attempt before it. -/
theorem master_never_silent {α : Type} [Application α] {s t : Station α} {x : Moment α}
    {turn : List (Moment α)} {D : Nat} (h : s.Reachable) (run : s.Run (x :: turn) t)
    (steady : (x :: turn).IsChain (Moment.Follows D)) (speaks : x.before.node.state = .speaking)
    (master : ∀ z ∈ turn, z.before.node.master = true) :
    x.Attempts ∧ ∀ early a quiet b late, x :: turn = early ++ a :: (quiet ++ b :: late) →
      a.Attempts → (∀ z ∈ quiet, ¬z.Attempts) →
      b.clock.start.millis ≤ a.clock.start.millis + s.node.settings.pause + 3 * D := by
  obtain ⟨rfl, hx, hrun⟩ := run.of_cons
  refine ⟨hx.attempts_of_speaking speaks, ?_⟩
  intro early a quiet b late split attempts silent
  have idle : x.before.node.InPulse x.before.node.settings.pause D x.clock.start.millis
      x.clock.start.millis :=
    Node.inPulse_of_not_isMaster (by rw [speaks]; rfl) (Nat.le_refl _)
  have first := hx.keepsPulse h idle (Nat.le_refl _) (Nat.le_refl _) (Nat.le_add_right _ _)
    (Or.inr speaks)
  have pause : x.after.node.settings.pause ≤ x.before.node.settings.pause := by
    rw [hx.settings_after]
  cases early with
  | nil =>
    obtain ⟨rfl, rfl⟩ := List.cons.inj split
    refine Station.Run.silence_le (h.moment hx) hrun steady (fun z hz => master z ?_) pause
      (first.2 attempts) silent
    simpa using (List.mem_append.1 hz).imp_right fun hz => Or.inl (List.mem_singleton.1 hz)
  | cons y early =>
    obtain ⟨rfl, rfl⟩ := List.cons.inj split
    obtain ⟨hearly, hlater⟩ := List.forall_mem_append.1 master
    obtain ⟨ha, hrest⟩ := List.forall_mem_cons.1 hlater
    obtain ⟨w, last, ⟨after, within⟩, hn, hreach, hpause, -⟩ := hrun.inPulse early (h.moment hx)
      steady hearly pause (first.2 (hx.attempts_of_speaking speaks))
    obtain ⟨-, happens, hrun'⟩ := hrun.of_middle
    have busy : a.before.node.state.isMaster = true := by
      rw [← (Station.sound_of_reachable hreach).master, ha]
    have pulse := (happens.keepsPulse hreach hn hpause after within (Or.inl busy)).2 attempts
    refine Station.Run.silence_le (hreach.moment happens) hrun' ?_ (fun z hz => hrest z ?_)
      (by rwa [happens.settings_after]) pulse silent
    · exact List.IsChain.right_of_append
        (show ((x :: early) ++ a :: (quiet ++ b :: late)).IsChain _ from steady)
    · simpa using (List.mem_append.1 hz).imp_right fun hz => Or.inl (List.mem_singleton.1 hz)

/-! ## A slow turn -/

/-- Node 1 has its turn, and takes a step every second and a half.  It repeats its payload once, and
when it is about to do so again its turn is over. -/
def slowTurn? : Option (Station Beacon × List (Moment Beacon) × Station Beacon) :=
  Station.played? ⟨1⟩ [
    (.zero, []),
    (.zero, [⟨some ⟨2⟩, ⟨1⟩, (Message.joinAck ⟨1⟩ ⟨7⟩ 5 true [⟨1⟩, ⟨2⟩]).encode⟩]),
    (.zero, []), (.ofMillis 1500, []), (.ofMillis 3000, []), (.ofMillis 4500, []),
    (.ofMillis 6000, []), (.ofMillis 7500, []), (.ofMillis 9000, []), (.ofMillis 10500, [])]

theorem isSome_slowTurn? : slowTurn?.isSome = true := by decide +kernel

def slowRun : Station Beacon × List (Moment Beacon) × Station Beacon :=
  slowTurn?.get isSome_slowTurn?

/-- What it does from the beginning of its turn. -/
def slowTurn : List (Moment Beacon) := slowRun.2.1.drop 2

theorem run_slowTurn : ∃ s : Station Beacon, s.Reachable ∧ s.Run slowTurn slowRun.2.2 := by
  obtain ⟨boot, hrun⟩ :=
    Station.run_of_played? (p := slowRun) (Option.some_get isSome_slowTurn?).symm
  rw [← List.take_append_drop 2 slowRun.2.1] at hrun
  obtain ⟨s, hearly, hlate⟩ := hrun.of_append
  exact ⟨s, hearly.reachable boot.reachable, hlate⟩

/-- The moment that begins the turn. -/
def slowStart : Moment Beacon := slowTurn.get ⟨0, by decide +kernel⟩

/-- The moment of the repetition. -/
def slowRepetition : Moment Beacon := slowTurn.get ⟨3, by decide +kernel⟩

/-- What comes after the repetition. -/
def slowEnd : List (Moment Beacon) := slowTurn.drop 4

/-- The moment of the offer. -/
def slowOffer : Moment Beacon := slowEnd.get ⟨3, by decide +kernel⟩

/-- **Node 1 is silent for six seconds**, which is as long as three steps late and half a second
less than it may be. -/
theorem master_never_silent_of_slow_turn : slowRepetition.clock.start.millis = 4500 ∧
    slowOffer.clock.start.millis = 10500 ∧ (∀ z ∈ slowEnd.take 3, ¬z.Attempts) ∧
    slowOffer.clock.start.millis ≤
      slowRepetition.clock.start.millis + slowStart.before.node.settings.pause + 3 * 1500 := by
  obtain ⟨s, hs, hrun⟩ := run_slowTurn
  have hstart : slowTurn = slowStart :: slowTurn.drop 1 :=
    Station.eq_take_append_get slowTurn ⟨0, by decide +kernel⟩
  have hend : slowEnd = slowEnd.take 3 ++ slowOffer :: slowEnd.drop 4 :=
    Station.eq_take_append_get slowEnd ⟨3, by decide +kernel⟩
  have hsplit : slowTurn = slowTurn.take 3 ++ slowRepetition :: slowEnd :=
    Station.eq_take_append_get slowTurn ⟨3, by decide +kernel⟩
  have silent : ∀ z ∈ slowEnd.take 3, ¬z.Attempts := by decide +kernel
  rw [hstart] at hrun
  have never := (master_never_silent (D := 1500) hs hrun (by decide +kernel) (by decide +kernel)
    (by decide +kernel)).2
  obtain ⟨rfl, -, -⟩ := hrun.of_cons
  refine ⟨by decide +kernel, by decide +kernel, silent,
    never (slowTurn.take 3) slowRepetition (slowEnd.take 3) slowOffer (slowEnd.drop 4) ?_
      (by decide +kernel) silent⟩
  rw [← hstart, ← hend]
  exact hsplit

end RadioRing
