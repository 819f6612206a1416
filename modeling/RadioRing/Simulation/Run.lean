import RadioRing.Simulation.Basic
/-!
# Simulation/Run — stretches of simulated time

`runFor` steps until a time is reached and `runUntil` until a condition holds.  Every step moves the
clock on by the whole milliseconds of a tick, so a tick of a millisecond or more gets there in a
number of steps that is known beforehand; **with a shorter tick the clock stands still**, and a run
that has to wait for it is given up after `stillSteps` steps more.
-/

namespace RadioRing.Simulation

variable {φ : Type} [DropFilter φ]

/-- How a run of steps ended. -/
structure Outcome (φ : Type) where
  simulation : Simulation φ
  /-- Everything that was remarked, the last remark first. -/
  remarks : List Remark
  /-- Whether the run found what it waited for, if it ended at all. -/
  reached : Option Bool

/-- Steps until `stop` says how the run ends, at most `fuel` times. -/
def advance (stop : Simulation φ → Option Bool) :
    Nat → Simulation φ → List Remark → Except Overflow (Outcome φ)
  | 0, s, remarks => .ok ⟨s, remarks, stop s⟩
  | fuel + 1, s, remarks =>
    match stop s with
    | some reached => .ok ⟨s, remarks, some reached⟩
    | none =>
      match s.step with
      | .error e => .error e
      | .ok (s, more) => advance stop fuel s (more.reverse ++ remarks)

/-- A given number of steps. -/
def steps (s : Simulation φ) (count : Nat) : Except Overflow (Outcome φ) :=
  advance (fun _ => none) count s []

/-- The steps that a run whose clock stands still is given beyond those it would need otherwise. -/
def stillSteps : Nat := 65536

/-- Enough steps to bring a moving clock from now to `limit`. -/
def budget (s : Simulation φ) (limit : Timestamp) : Nat :=
  limit.millis - s.now.millis + stillSteps

/-- Steps for a stretch of time. -/
def runFor (s : Simulation φ) (d : Duration) : Except Overflow (Outcome φ) :=
  let limit := s.now.after d
  advance (fun s => if s.now < limit then none else some true) (s.budget limit) s []

/-- Steps until `goal` holds or a stretch of time is over.  The goal is looked at first. -/
def runUntil (s : Simulation φ) (d : Duration) (goal : Simulation φ → Bool) :
    Except Overflow (Outcome φ) :=
  let limit := s.now.after d
  advance (fun s => if goal s then some true else if s.now < limit then none else some false)
    (s.budget limit) s []

/-- The text of the state of every node that is switched on. -/
def stateTexts (s : Simulation φ) : List (Address × String) :=
  s.stations.entries.map fun entry => (entry.1, entry.2.node.state.text)

/-- A change of what a node shows: when, who and what. -/
abbrev Change := Timestamp × Address × String

/-- The changes from what the nodes showed before to what they show now. -/
def changes (before : List (Address × String)) (s : Simulation φ) : List Change :=
  s.stateTexts.filterMap fun entry =>
    if before.contains entry then none else some (s.now, entry)

/-- Steps for a stretch of time, at most `fuel` times, and keeps every change of a state. -/
def watch (limit : Timestamp) :
    Nat → Simulation φ → List Change → List Remark → Except Overflow (List Change × Outcome φ)
  | 0, s, seen, remarks => .ok (seen.reverse, ⟨s, remarks, none⟩)
  | fuel + 1, s, seen, remarks =>
    if s.now < limit then
      match s.step with
      | .error e => .error e
      | .ok (next, more) =>
        watch limit fuel next ((next.changes s.stateTexts).reverse ++ seen)
          (more.reverse ++ remarks)
    else .ok (seen.reverse, ⟨s, remarks, some true⟩)

/-- The changes during a stretch of time. -/
def trace (s : Simulation φ) (d : Duration) : Except Overflow (List Change × Outcome φ) :=
  let limit := s.now.after d
  watch limit (s.budget limit) s [] []

end RadioRing.Simulation
