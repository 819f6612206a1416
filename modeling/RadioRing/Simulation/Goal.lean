import RadioRing.Simulation.Run
/-!
# Simulation/Goal — what a run can wait for

A `Goal` is a condition on the nodes of a simulation.  The nodes have **converged** when every
address of the roster is switched on, sees the whole roster as eligible and belongs to the first
node's network.
-/

namespace RadioRing

/-- What a run can wait for. -/
inductive Goal
  /-- A node shows a state of this name. -/
  | state (a : Address) (name : String)
  /-- A node has taken so many turns. -/
  | turns (a : Address) (count : Nat)
  /-- A node belongs to a network. -/
  | session (a : Address)
  /-- A node sees exactly so many nodes as eligible. -/
  | eligible (a : Address) (count : Nat)
  /-- There are exactly so many masters. -/
  | masters (count : Nat)
  /-- All nodes agree that they are all there. -/
  | converged
  /-- Nothing. -/
  | never
deriving DecidableEq, Repr

namespace Goal

variable {φ : Type}

/-- Whether a node is switched on and a condition holds of its status. -/
def asks (s : Simulation φ) (a : Address) (f : Status → Bool) : Bool := (s.status? a).any f

/-- Whether all nodes agree that they are all there. -/
def hasConverged (s : Simulation φ) : Bool :=
  let everyone := (AddressMap.ofKeys s.roster ()).keys
  let first := (s.roster.head?.bind s.status?).bind Status.session
  s.roster.all fun a => asks s a fun x => x.eligible = everyone && x.session = first

/-- Whether a goal is reached. -/
def holds (s : Simulation φ) : Goal → Bool
  | state a name => asks s a fun x => x.state = name
  | turns a count => asks s a fun x => count ≤ x.stats.turnsTaken
  | session a => asks s a fun x => x.session.isSome
  | eligible a count => asks s a fun x => x.eligible.length = count
  | masters count => s.masters.length = count
  | converged => hasConverged s
  | never => false

end Goal

end RadioRing
