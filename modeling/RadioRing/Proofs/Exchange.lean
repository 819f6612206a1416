import RadioRing.Proofs.Network
import RadioRing.Proofs.Runs

/-!
# Proofs/Exchange — one frame from a station to another

The frame that one station sends can reach a step of another one (`Moment.Reaches`), and **what that
step hears is the message as it was said** (`Reaches.heard_eq`).  Between two frames a station may
take any number of steps in which it only waits; they change nothing (`Run.eq_of_idle`).
-/

namespace RadioRing

variable {α : Type}

namespace Moment

/-- The radio takes the frame of the step `x`, and the step `y` reads that frame. -/
def Reaches (x y : Moment α) : Prop :=
  x.taken = true ∧ ∃ e ∈ x.reaction.emission, ∃ reports, y.heard = (y.before.node.link.read reports
    ((Transmission.ofEmission reports x.before.node.own e).packet reports)).1

/-- The station waits in this step: it looks at no message, and the deadline that its state waits
for has not passed. -/
structure Idle (x : Moment α) : Prop where
  waits : x.before.node.state.isWaiting = true
  silent : x.before.node.regards x.heard = none
  early : ∀ d ∈ x.before.node.awaited?, d.elapsed x.clock.start = false

variable {x y : Moment α} {e : Emission}

theorem Reaches.exists_emission (h : x.Reaches y) : ∃ e, x.reaction.emission = some e := by
  obtain ⟨-, e, he, -⟩ := h
  exact ⟨e, he⟩

/-- **What reaches another station is heard as it was said**, if it is meant for it. -/
theorem Reaches.heard_eq (h : x.Reaches y) (he : x.reaction.emission = some e)
    (apart : x.before.node.own ≠ y.before.node.own)
    (known : x.before.node.own ∈ y.before.node.settings.roster)
    (meant : e.dest = y.before.node.own ∨ e.dest.isEveryone = true) (fits : e.message.WellFormed) :
    y.heard = some ⟨x.before.node.own, e.dest, e.message, e.message.encode⟩ := by
  obtain ⟨-, e', he', reports, hheard⟩ := h
  obtain rfl : e = e' := Option.some.inj (he.symm.trans he')
  refine hheard.trans (Link.fst_read_eq_some_iff.2 ⟨?_, rfl, apart, known, meant, ?_⟩)
  · cases reports <;> rfl
  · exact Message.decode_encode fits

variable [Application α]

/-- A step makes the one reaction that the rule of the state calls for. -/
theorem Happens.reaction_eq {r : Reaction α} (h : x.Happens)
    (hr : x.before.node.react x.before.app x.clock x.heard = .ok r) : x.reaction = r :=
  Except.ok.inj (h.steps.reacts.symm.trans hr)

/-- **What a listener does is what it makes of the message that it looks at.** -/
theorem Happens.reaction_of_listening (h : x.Happens) {m : Inbound}
    (listening : x.before.node.state = .listening)
    (early : x.before.node.timers.watchdog.elapsed x.clock.start = false) (regards : x.Regards m) :
    x.reaction = (x.before.node.awake x.clock.heard).hearAsListener x.before.app m := by
  refine h.reaction_eq ?_
  unfold Node.react
  rw [listening]
  dsimp only
  rw [Node.listen_eq _ _ early, (Node.regards_of_listening listening _).symm.trans regards]

/-- A station that idles keeps its node and its application as they are. -/
theorem Idle.react_eq (hi : x.Idle) : x.before.node.react x.before.app x.clock x.heard =
    .ok { node := x.before.node, app := x.before.app, transition := .goTo x.before.node.state } := by
  obtain ⟨waits, silent, early⟩ := hi
  unfold Node.regards at silent
  unfold Node.awaited? at early
  unfold Node.react
  cases hs : x.before.node.state <;> rw [hs] at waits silent early <;>
    simp only [if_true, reduceCtorEq, if_false, Option.mem_some_iff, forall_eq'] at silent early
  case awaitingAdmission => simp [Node.awaitAdmission, silent, early]
  case alone => simp [Node.waitAlone, silent, early]
  case listening => rw [Node.listen_eq _ _ early, silent]
  case awaitingEcho =>
    rw [Deadline.elapsed_earlier, Bool.or_eq_false_iff] at early
    simp [Node.awaitEcho, silent, early]
  case awaitingTaker => simp [Node.awaitTaker, silent, early]
  all_goals exact absurd waits Bool.false_ne_true

/-- **Waiting changes nothing.** -/
theorem Happens.after_of_idle (h : x.Happens) (hi : x.Idle) : x.after = x.before := by
  have hr := h.reaction_eq hi.react_eq
  obtain ⟨events, hf⟩ := h.steps.ends
  have happ := h.steps.app
  rw [hr] at hf happ
  have hnode : x.before.node = x.after.node := by
    simp only [Reaction.finish, Reaction.credit, Stats.credit, ite_self, Node.move,
      Transition.marks_goTo, Node.applyMarks, Transition.next_goTo, if_true] at hf
    exact (Prod.mk.inj (Except.ok.inj hf)).1
  show Station.mk x.after.node x.after.app = Station.mk x.before.node x.before.app
  rw [hnode, happ]

end Moment

namespace Station

variable [Application α] {s t : Station α} {run : List (Moment α)}

/-- The next step of the station does not fail, whatever its radio and its clock do. -/
def Proceeds (s : Station α) : Prop := ∀ {ρ : Type} [Radio ρ] (radio : ρ) (clock : Readings),
  ∃ p, s.step radio clock = .ok p

/-- A step can fail on the way into a network, out of one, or into being alone. -/
theorem proceeds_of_state (h : s.node.state ∉ [.requesting, .founding, .alone, .offering]) :
    s.Proceeds := by
  simp only [List.mem_cons, List.not_mem_nil, or_false, not_or] at h
  obtain ⟨hreq, hfound, halone, hoffer⟩ := h
  exact fun radio clock =>
    exists_step_of_state hreq hfound halone (fun hs => absurd hs hoffer) radio clock

theorem Run.eq_of_idle (h : s.Run run t) (idle : ∀ x ∈ run, x.Idle) : t = s := by
  induction h with
  | refl => rfl
  | step _ hx ih =>
    obtain ⟨hrun, hi⟩ := List.forall_mem_append.1 idle
    exact (hx.after_of_idle (List.forall_mem_singleton.1 hi)).trans (ih hrun)

end Station

end RadioRing
