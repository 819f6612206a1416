import RadioRing.Proofs.Lockstep
import RadioRing.Proofs.Reachable

/-!
# Proofs/LiveTimers — no state looks at a timer that another one has left behind

A timer stays armed when a node leaves the state that has armed it.  Each state looks at some of the
timers only (`State.live`), and **every way into a state arms what it looks at**, or comes from a
state that looks at it too.  So what the other timers were left at never shows, neither at once nor
later (`timers_never_leak`).
-/

namespace RadioRing

/-- The stations are the same but for timers that their state does not look at. -/
structure Station.Resembles {α : Type} (s s' : Station α) : Prop where
  app : s'.app = s.app
  node : s'.node = { s.node with timers := s'.node.timers }
  live : ∀ x ∈ s.node.state.live, s'.node.timers.deadline x = s.node.timers.deadline x

/-- Resembling stations are alike with equal counters, and agree on the timers looked at. -/
theorem Station.resembles_iff_alike {α : Type} {s s' : Station α} :
    s.Resembles s' ↔ s.Alike .nothing (fun _ => False) s' :=
  ⟨fun ⟨happ, hnode, hlive⟩ => ⟨happ, hnode, fun x hx => hlive x (hx.resolve_left id)⟩,
    fun ⟨happ, hnode, hlive⟩ => ⟨happ, hnode, fun x hx => hlive x (Or.inr hx)⟩⟩

/-- **Timers never leak from one state to another.**  Two stations that are the same but for timers
that their state does not look at go on in the same way, on the same radio and clock and for as many
steps as one likes: both fail in the same step and for the same reason, or neither does, and then
the radio has been asked for the same, the same has been reported, every frame sent and every
transition included, the application has got the same, and the stations are again the same but for
timers that their state does not look at. -/
theorem timers_never_leak {α ρ : Type} [Application α] [Radio ρ] {s s' : Station α}
    (h : s.Resembles s') (radio : ρ) (clocks : List Readings) :
    Abreast (fun p p' => p.1.Resembles p'.1 ∧ p'.2 = p.2) (s.course radio clocks)
      (s'.course radio clocks) :=
  (Station.Alike.course clocks radio (Station.resembles_iff_alike.1 h)).mono fun _ _ =>
    And.imp_left Station.resembles_iff_alike.2

theorem isSome_holder? : (Station.holder? ⟨1⟩ ⟨2⟩ 5 [⟨1⟩, ⟨2⟩]).isSome = true := by decide

/-- Node 1 in its first turn. -/
def firstTurn : Station Beacon := (Station.holder? ⟨1⟩ ⟨2⟩ 5 [⟨1⟩, ⟨2⟩]).get isSome_holder?

theorem state_firstTurn : firstTurn.node.state = .awaitingEcho := by decide

/-- Node 1 in its first turn, with every timer that it does not look at armed for an hour later. -/
def firstTurnLate : Station Beacon :=
  let late : Deadline := .after .zero (.ofSeconds 3600)
  { firstTurn with node.timers := { firstTurn.node.timers with
      joinResend := late, offerRetry := late, watchdog := late, reply := late, rescan := late } }

/-- The timers that the first turn does not look at may be armed for any other moment. -/
theorem resembles_firstTurnLate : firstTurn.Resembles firstTurnLate := by
  refine ⟨rfl, rfl, fun x hx => ?_⟩
  rw [state_firstTurn] at hx
  rcases List.mem_cons.1 hx with rfl | hx
  · rfl
  · obtain rfl := List.mem_singleton.1 hx
    rfl

/-- Node 2 has a newer token, and says so twice. -/
def rival : ScriptedRadio :=
  { inbox := [⟨some ⟨2⟩, .everyone, (Message.data 9 [1]).encode⟩,
      ⟨some ⟨2⟩, .everyone, (Message.retry 9 [1]).encode⟩] }

/-- Node 1 yields, acknowledges both payloads, and takes the ring for silent a minute later. -/
def timesOfYield : List Readings :=
  [.still .zero, .still .zero, .still .zero, .still .zero, .still (.ofMillis 1000),
    .still (.ofMillis 61000)]

/-- **The watchdog of node 1 fires after a minute of silence**, also if it was left at an hour. -/
theorem timers_never_leak_of_yield : firstTurn.Resembles firstTurnLate ∧
    firstTurnLate.node.timers.watchdog ≠ firstTurn.node.timers.watchdog ∧
    (firstTurn.course rival timesOfYield).toOption.map (·.1.node.stats.watchdogFires) = some 1 ∧
    Abreast (fun p p' => p.1.Resembles p'.1 ∧ p'.2 = p.2) (firstTurn.course rival timesOfYield)
      (firstTurnLate.course rival timesOfYield) :=
  ⟨resembles_firstTurnLate, by decide, by decide,
    timers_never_leak resembles_firstTurnLate rival timesOfYield⟩

end RadioRing
