import RadioRing.Node.Basic
/-!
# Node/Reaction — what a node makes of one step

In one step a node hears at most one message and sends at most one.  A `Reaction` is its answer: the
node as it is before anything is sent, at most one `Emission`, and the `Transition` to make
afterwards.  `Node.finish` books what the radio took and moves on; **whether the radio took the
frame changes nothing but the counters** that `Credit` names.
-/

namespace RadioRing

/-- A change to the membership table. -/
structure Mark where
  node : Address
  eligible : Bool
deriving DecidableEq, Repr

/-- Where a node goes next, and the table changes it makes on the way, in order. -/
structure Transition where
  next : State
  marks : List Mark := []
deriving DecidableEq, Repr

namespace Transition

/-- Goes to `next` and leaves the table alone. -/
def goTo (next : State) : Transition := { next }

/-- Changes one flag more. -/
def mark (t : Transition) (node : Address) (eligible : Bool) : Transition :=
  { t with marks := t.marks ++ [⟨node, eligible⟩] }

/-- Changes some flags more. -/
def withMarks (t : Transition) (marks : List Mark) : Transition :=
  { t with marks := t.marks ++ marks }

@[simp] theorem next_goTo (next : State) : (goTo next).next = next := rfl

@[simp] theorem next_mark (t : Transition) (node : Address) (eligible : Bool) :
    (t.mark node eligible).next = t.next := rfl

@[simp] theorem next_withMarks (t : Transition) (marks : List Mark) :
    (t.withMarks marks).next = t.next := rfl

@[simp] theorem marks_goTo (next : State) : (goTo next).marks = [] := rfl

@[simp] theorem marks_mark (t : Transition) (node : Address) (eligible : Bool) :
    (t.mark node eligible).marks = t.marks ++ [⟨node, eligible⟩] := rfl

@[simp] theorem marks_withMarks (t : Transition) (marks : List Mark) :
    (t.withMarks marks).marks = t.marks ++ marks := rfl

end Transition

/-- The counter that a frame moves, if the radio takes it. -/
inductive Credit
  | nothing
  | acknowledgement
  | repetition
  | admission
deriving DecidableEq, Repr

/-- The counters with one frame more. -/
def Stats.credit (s : Stats) : Credit → Stats
  | .nothing => s
  | .acknowledgement => { s with acksSent := s.acksSent + 1 }
  | .repetition => { s with retriesSent := s.retriesSent + 1 }
  | .admission => { s with joinsAnswered := s.joinsAnswered + 1 }

/-- A message to send. -/
structure Emission where
  dest : Address
  message : Message
  credit : Credit := .nothing
deriving DecidableEq, Repr

/-- A message to all nodes. -/
def Emission.toAll (message : Message) (credit : Credit := .nothing) : Emission :=
  { dest := .everyone, message, credit }

/-- The acknowledgement of a frame of `dest`. -/
def Emission.ack (dest : Address) (echo : Bytes) : Emission :=
  { dest, message := .ack echo, credit := .acknowledgement }

/-- What a node makes of one step. -/
structure Reaction (α : Type) where
  /-- The node before anything is sent. -/
  node : Node
  app : α
  /-- Remarks before the sending. -/
  before : List Event := []
  emission : Option Emission := none
  /-- Remarks after the sending. -/
  after : List Event := []
  transition : Transition

/-- The readings of the clock that one step takes: at its start, after it has listened, and when it
enters a new state. -/
structure Readings where
  start : Timestamp
  heard : Timestamp
  entered : Timestamp
deriving DecidableEq, Inhabited, Repr

/-- A step during which the clock stands still. -/
def Readings.still (now : Timestamp) : Readings := ⟨now, now, now⟩

namespace Node

/-- Arms the timers that the node's state relies on. -/
def enter (n : Node) (now : Timestamp) : Except Overflow Node :=
  let t := n.settings.timings
  match n.state with
  | .listening => .ok { n with timers.watchdog := .after now t.watchdog }
  | .alone =>
    let (spread, n) := n.jitter t.joinResend
    match t.watchdog.add? spread with
    | some wait => .ok { n with timers.rescan := .after now wait }
    | none => .error .rescanWait
  | .acknowledging .. =>
    let (delay, n) := n.jitter t.answerJitter
    .ok { n with timers.reply := .after now delay }
  | .admitting joiner =>
    -- With nobody else around there is nobody to collide with.
    if n.table.anyBesides [n.own, joiner] then
      let (delay, n) := n.jitter t.answerJitter
      .ok { n with timers.reply := .after now delay }
    else .ok { n with timers.reply := .after now .zero }
  | _ => .ok n

/-- Makes one change to the table.  Only changes to the flag of a peer are counted. -/
def applyMark (n : Node) (m : Mark) : Node × List Event :=
  let changed := { n with table := n.table.mark m.node m.eligible }
  if ¬n.table.isNews m.node m.eligible ∨ m.node = n.own then (changed, [])
  else if m.eligible then
    ({ changed with stats.admissions := n.stats.admissions + 1 }, [.peerAdmitted m.node])
  else ({ changed with stats.evictions := n.stats.evictions + 1 }, [.peerEvicted m.node])

/-- Makes several changes to the table, in order. -/
def applyMarks (n : Node) : List Mark → Node × List Event
  | [] => (n, [])
  | m :: rest =>
    let (n, events) := n.applyMark m
    let (n, more) := n.applyMarks rest
    (n, events ++ more)

/-- Makes a transition.  **The timers of a state are armed only on the way into it.** -/
def move (n : Node) (t : Transition) (now : Timestamp) : Except Overflow (Node × List Event) :=
  let (n, events) := n.applyMarks t.marks
  if t.next = n.state then .ok (n, events)
  else
    match { n with state := t.next }.enter now with
    | .ok entered => .ok (entered, events ++ [.moved n.state t.next])
    | .error e => .error e

end Node

namespace Reaction

variable {α : Type}

/-- The counter that this reaction moves when its frame is taken. -/
def credit (r : Reaction α) : Credit :=
  match r.emission with
  | some e => e.credit
  | none => .nothing

/-- The end of the step: `taken` says whether the radio took the frame. -/
def finish (r : Reaction α) (taken : Bool) (now : Timestamp) :
    Except Overflow (Node × List Event) :=
  let stats := if taken then r.node.stats.credit r.credit else r.node.stats
  { r.node with stats }.move r.transition now

end Reaction

end RadioRing
