import RadioRing.Proofs.Authority
import RadioRing.Proofs.Lockstep
import RadioRing.Proofs.Network

/-!
# Proofs/Refusals — a frame that the radio refuses is a frame lost on the air

A node asks its radio to send and does not wait for what becomes of it: it goes on as if the frame
had left, and its timers make good what got lost.  **Whether the radio took the frame shows in one
counter and nowhere else** (`refused_send_is_lost`), and since no rule looks at that counter it does
not show in anything that the node does from then on.
-/

namespace RadioRing

/-! ## The counter of a message -/

/-- The counter that a message moves, if the radio takes it. -/
def Message.credit : Message → Credit
  | .ack _ => .acknowledgement
  | .retry .. => .repetition
  | .joinAck .. => .admission
  | .data .. | .turn .. | .joinRequest _ => .nothing

/-- **What a step counts is told by its message.** -/
theorem Node.Acts.credit_eq {n n' : Node} {clock : Readings} {heard : Option Inbound}
    {e : Option Emission} {t : Transition} (h : n.Acts clock heard n' e t)
    (offers : ∀ m ∈ n.offer, m.tag = .turn) : ∀ x ∈ e, x.credit = x.message.credit := by
  intro x hx
  cases h with
  | offersAgain =>
    obtain ⟨m, hm, rfl⟩ := Option.map_eq_some_iff.1 hx
    have htag := offers m hm
    cases m <;> first | rfl | exact absurd htag nofun
  | asks | admits | acknowledges | accepts | speaks | repeats | offers =>
    obtain rfl := Option.some.inj hx
    rfl
  | hearsListening _ _ _ makes | hearsAlone _ _ _ makes | hearsHolding _ _ _ _ makes
  | hearsGiving _ _ _ makes =>
    cases makes
    all_goals first
      | obtain rfl := Option.some.inj hx
        rfl
      | exact absurd hx nofun
  | _ => exact absurd hx nofun

namespace Link

variable {ρ : Type} [Radio ρ]

/-- The frame fits, and the radio takes it. -/
def Takes (l : Link) (radio : ρ) (e : Emission) : Prop :=
  ∃ bytes, l.frame (Radio.reportsSender radio) (Radio.capacity radio) e.message = .ok bytes ∧
    (Radio.send radio e.dest bytes).1 = .ok ()

/-- The frame is too large, or the radio does not take it. -/
def Refuses (l : Link) (radio : ρ) (e : Emission) : Prop :=
  (∃ length, l.frame (Radio.reportsSender radio) (Radio.capacity radio) e.message =
    .error (.frameTooLarge length (Radio.capacity radio))) ∨
  ∃ bytes reason, l.frame (Radio.reportsSender radio) (Radio.capacity radio) e.message = .ok bytes ∧
    (Radio.send radio e.dest bytes).1 = .error reason

variable {l : Link} {radio : ρ} {e : Emission}

theorem Takes.fst_send (h : l.Takes radio e) : (l.send radio e.dest e.message).1 = true := by
  obtain ⟨bytes, hframe, hsend⟩ := h
  unfold send
  rcases hp : Radio.send radio e.dest bytes with ⟨result, radio'⟩
  rw [hp] at hsend
  obtain rfl : result = .ok () := hsend
  simp only [hframe, hp]

theorem Refuses.fst_send (h : l.Refuses radio e) : (l.send radio e.dest e.message).1 = false := by
  unfold send
  rcases h with ⟨length, hframe⟩ | ⟨bytes, reason, hframe, hsend⟩
  · simp only [hframe]
  · rcases hp : Radio.send radio e.dest bytes with ⟨result, radio'⟩
    rw [hp] at hsend
    obtain rfl : result = .error reason := hsend
    simp only [hframe, hp]

end Link

namespace Reaction

variable {α : Type} {r : Reaction α}

/-- **The end of a step is the same whether the frame was taken or not**, but for one counter. -/
theorem finish_refused (r : Reaction α) (now : Timestamp) :
    Abreast (fun p p' => p.1.Agrees r.credit (fun _ => True) p'.1 ∧ p'.2 = p.2)
      (r.finish false now) (r.finish true now) := by
  have hmoves := Node.agrees_move (n := r.node) (c := r.credit) (t := r.node.timers)
    (B := fun _ => True) r.transition (fun _ _ => rfl) now
  exact hmoves.mono fun p p' ⟨_, hagrees, hevents⟩ => ⟨hagrees, hevents⟩

end Reaction

namespace Station

variable {α : Type}

/-- The station with one frame more in the counter that `c` names. -/
def credited (s : Station α) (c : Credit) : Station α :=
  { s with node.stats := s.node.stats.credit c }

/-- With all timers in agreement, only the credit of one frame can differ. -/
theorem alike_iff_credited {c : Credit} {s s' : Station α} :
    s.Alike c (fun _ => True) s' ↔ s' = s.credited c := by
  constructor
  · rintro ⟨happ, hnode, hagree⟩
    have htimers : s'.node.timers = s.node.timers :=
      (hagree.mono fun _ _ => Or.inl trivial).eq
    obtain ⟨n', app'⟩ := s'
    dsimp only at happ hnode htimers
    rw [hnode, htimers, happ]
    rfl
  · rintro rfl
    exact ⟨rfl, rfl, fun _ _ => rfl⟩

variable {ρ : Type} [Application α] [Radio ρ] {s : Station α} {radio : ρ} {clock : Readings}
  {r : Reaction α}

/-- The second station has one frame more in the counter that `c` names, now and for ever, and that
is the only difference between the two, whatever they hear and whenever. -/
structure DifferIn (c : Credit) (s s' : Station α) : Prop where
  now : s' = s.credited c
  later : ∀ (ρ : Type) [Radio ρ] (radio : ρ) (clocks : List Readings),
    Abreast (fun p p' => p'.1 = p.1.credited c ∧ p'.2 = p.2) (s.course radio clocks)
      (s'.course radio clocks)

/-- **A counter of frames sent changes nothing else.** -/
theorem Alike.differIn {c : Credit} {s s' : Station α} (h : s.Alike c (fun _ => True) s') :
    s.DifferIn c s' where
  now := alike_iff_credited.1 h
  later _ _ radio clocks := (h.course clocks radio).mono fun _ _ =>
    And.imp_left alike_iff_credited.1

/-- A step is its reaction, the frame of it, and the end. -/
theorem step_of_react (h : s.node.react s.app clock (s.hear radio clock.start).1 = .ok r) :
    s.step radio clock =
      r.finish (emit s.node.link (s.hear radio clock.start).2.1 r.emission).1 clock.entered >>=
        fun p => .ok (⟨p.1, r.app⟩,
          (emit s.node.link (s.hear radio clock.start).2.1 r.emission).2.1,
          (s.hear radio clock.start).2.2 ++ r.before ++
            (emit s.node.link (s.hear radio clock.start).2.1 r.emission).2.2 ++ r.after ++ p.2) := by
  rcases hh : s.hear radio clock.start with ⟨heard, radio₁, received⟩
  rw [hh] at h
  simp only [step, hh]
  rw [h]
  rfl

/-- A step fails if its reaction does. -/
theorem step_of_react_error {e : Overflow}
    (h : s.node.react s.app clock (s.hear radio clock.start).1 = .error e) :
    s.step radio clock = .error e := by
  rcases hh : s.hear radio clock.start with ⟨heard, radio₁, received⟩
  rw [hh] at h
  simp only [step, hh]
  rw [h]
  rfl

end Station

/-- **A refused send is no different from a frame lost on the air.**  A station takes a step with a
radio that takes its frame and the same step with one that does not, because it fails or because the
frame is too large, having heard the same on both.  Either both steps fail, for the same reason, or
the station is the same afterwards, its application included, but for the counter of the frame: of
acknowledgements, of repetitions or of admissions, according to the message.  And whatever comes
afterwards, it makes no other difference than that. -/
theorem refused_send_is_lost {α ρ ρ' : Type} [Application α] [Radio ρ] [Radio ρ'] {s : Station α}
    (h : s.Reachable) {accepting : ρ} {refusing : ρ'} {clock : Readings} {r : Reaction α}
    {e : Emission}
    (heard : (s.hear refusing clock.start).1 = (s.hear accepting clock.start).1)
    (reacts : s.node.react s.app clock (s.hear accepting clock.start).1 = .ok r)
    (emits : r.emission = some e)
    (takes : s.node.link.Takes (s.hear accepting clock.start).2.1 e)
    (refuses : s.node.link.Refuses (s.hear refusing clock.start).2.1 e) :
    Abreast (fun p p' => p.1.DifferIn e.message.credit p'.1)
      (s.step refusing clock) (s.step accepting clock) := by
  have hcredit : r.credit = e.message.credit := by
    rw [Reaction.credit, emits]
    exact (Node.acts_of_react reacts).credit_eq h.turn_of_offer e emits
  have htaken :
      (Station.emit s.node.link (s.hear accepting clock.start).2.1 r.emission).1 = true := by
    rw [emits]
    exact takes.fst_send
  have hrefused :
      (Station.emit s.node.link (s.hear refusing clock.start).2.1 r.emission).1 = false := by
    rw [emits]
    exact refuses.fst_send
  rw [Station.step_of_react reacts, Station.step_of_react (heard ▸ reacts), htaken, hrefused]
  refine (hcredit ▸ r.finish_refused clock.entered).bind fun p p' ⟨hagrees, _⟩ => .ok ?_
  exact Station.Alike.differIn ⟨rfl, hagrees.eq, hagrees.agree.mono fun _ _ => trivial⟩

/-! ## An answer -/

/-- Node 1, a listener, has heard a payload of node 2, and is about to acknowledge it. -/
def answer? : Option (Moment Beacon) :=
  (Station.played? ⟨1⟩ [
    (.zero, []),
    (.zero, [⟨some ⟨2⟩, ⟨1⟩, (Message.joinAck ⟨1⟩ ⟨7⟩ 5 false [⟨1⟩, ⟨2⟩]).encode⟩]),
    (.zero, [⟨some ⟨2⟩, .everyone, (Message.data 6 [1]).encode⟩]),
    (.zero, [])]).bind fun p => p.2.1[3]?

theorem isSome_answer? : answer?.isSome = true := by decide

def answer : Moment Beacon := answer?.get isSome_answer?

theorem happens_answer : answer.before.Reachable ∧ answer.Happens :=
  Station.happens_of_played? (Option.some_get isSome_answer?).symm

/-- Node 1 does not wait for a packet, since it is time to answer. -/
theorem hear_answer (radio : ScriptedRadio) :
    answer.before.hear radio answer.clock.start = (none, radio, []) :=
  Station.hear_of_patience_eq_none (by decide) radio

theorem reacts_answer : answer.before.node.react answer.before.app answer.clock none =
    .ok answer.reaction := by
  have hheard : answer.heard = none := by decide
  exact hheard ▸ happens_answer.2.steps.reacts

/-- The acknowledgement of the payload. -/
def echo : Emission := .ack ⟨2⟩ (Message.data 6 [1]).encode

theorem takes_echo : answer.before.node.link.Takes ({} : ScriptedRadio) echo :=
  ⟨_, Link.frame_of_le (by decide), rfl⟩

/-- **An acknowledgement that the radio refuses**, since it fails or since the frame is too large,
leaves node 1 as one that goes on the air does, but for the counter of acknowledgements. -/
theorem refused_send_is_lost_of_answer :
    (answer.before.step ({} : ScriptedRadio) answer.clock).toOption.map
      (·.1.node.stats.acksSent) = some 1 ∧
    Abreast (fun p p' => p.1.DifferIn .acknowledgement p'.1)
      (answer.before.step ({ failing := true } : ScriptedRadio) answer.clock)
      (answer.before.step ({} : ScriptedRadio) answer.clock) ∧
    Abreast (fun p p' => p.1.DifferIn .acknowledgement p'.1)
      (answer.before.step ({ capacity := 3 } : ScriptedRadio) answer.clock)
      (answer.before.step ({} : ScriptedRadio) answer.clock) := by
  have emits : answer.reaction.emission = some echo := by decide
  have heard (radio radio' : ScriptedRadio) : (answer.before.hear radio answer.clock.start).1 =
      (answer.before.hear radio' answer.clock.start).1 := by
    rw [hear_answer, hear_answer]
  have reacts : answer.before.node.react answer.before.app answer.clock
      (answer.before.hear ({} : ScriptedRadio) answer.clock.start).1 = .ok answer.reaction := by
    rw [hear_answer]
    exact reacts_answer
  have takes : answer.before.node.link.Takes
      (answer.before.hear ({} : ScriptedRadio) answer.clock.start).2.1 echo := by
    rw [hear_answer]
    exact takes_echo
  refine ⟨by decide, refused_send_is_lost happens_answer.1 (heard _ _) reacts emits takes ?_,
    refused_send_is_lost happens_answer.1 (heard _ _) reacts emits takes ?_⟩
  · rw [hear_answer]
    exact Or.inr ⟨_, _, Link.frame_of_le (by decide), rfl⟩
  · rw [hear_answer]
    exact Or.inl ⟨_, Link.frame_of_lt (by decide)⟩

end RadioRing
