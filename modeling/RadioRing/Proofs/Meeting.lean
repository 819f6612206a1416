import RadioRing.Proofs.Network
import RadioRing.Proofs.Twins

/-!
# Proofs/Meeting — two stations that hear each other

A `Meeting` is two stations that have a token each, and the frames that one has sent and the other
has not heard.  Each frame is heard once, in any order, and only acknowledgements are added.  **One
token that is safe at some moment is safe ever after** (`Twins.Safe.move`): a node keeps it, or
waits for the other one to take it.
-/

namespace RadioRing

/-! ## Two stations and what is between them -/

theorem Message.eq_ack_of_tag {m : Message} (h : m.tag = .ack) : ∃ echo, m = .ack echo := by
  cases m with
  | ack echo => exact ⟨echo, rfl⟩
  | _ => exact absurd h nofun

/-- Whether a frame is an acknowledgement, as whoever hears it will find. -/
def Transmission.acknowledges (reports : Bool) (t : Transmission) : Bool :=
  match Link.senderOf reports (t.packet reports) with
  | some (_, first :: _) => first = Tag.ack.byte
  | _ => false

theorem Transmission.acknowledges_ofEmission {reports : Bool} {sender : Address} {e : Emission} :
    (ofEmission reports sender e).acknowledges reports = true ↔ e.message.tag = .ack := by
  have hbyte : e.message.tag.byte = Tag.ack.byte ↔ e.message.tag = .ack := by
    constructor
    · intro h
      have ht := congrArg Tag.ofByte? h
      simpa using ht
    · exact congrArg Tag.byte
  rw [← hbyte]
  cases reports <;> exact decide_eq_true_iff

/-- What tells the others of the token of a node that waits: its payload, or the offer of its
token. -/
def Node.Tells (n : Node) (m : Message) : Prop :=
  match n.state with
  | .awaitingEcho => m = .data n.rounds.held n.outgoing ∨ m = .retry n.rounds.held n.outgoing
  | .awaitingTaker _ => n.offer = some m
  | _ => False

/-- The round of the token of a node that waits. -/
def Node.tokenRound (n : Node) : UInt32 :=
  match n.state with
  | .awaitingTaker _ => n.rounds.seen
  | _ => n.rounds.held

/-- Two stations, and what each of them has said that the other one has not heard yet. -/
structure Meeting (α : Type) where
  station : Bool → Station α
  unheard : Bool → List Transmission

namespace Meeting

variable {α : Type}

/-- The address of one of the two. -/
def own (w : Meeting α) (i : Bool) : Address := (w.station i).node.own

/-- The radio of a station that hears one frame or nothing. -/
def slot (reports : Bool) (heard : Option Transmission) : Slot where
  reportsSender := reports
  incoming := heard.map (Transmission.packet reports)

/-- One step of a station.  A frame that it hears is heard once, and of what it says only the
acknowledgements go on to the other one. -/
def move [Application α] (w : Meeting α) (reports i : Bool) (heard : Option Transmission)
    (clock : Readings) : Except Overflow (Meeting α) :=
  match (w.station i).step (slot reports heard) clock with
  | .error e => .error e
  | .ok (s, slot, _) => .ok {
      station := fun j => if j = i then s else w.station j
      unheard := fun j =>
        if j = i then
          let sent := slot.outgoing.map fun q => ⟨w.own i, q.1, q.2⟩
          w.unheard j ++ sent.filter (Transmission.acknowledges reports)
        else
          match heard with
          | some t => (w.unheard j).erase t
          | none => w.unheard j }

/-- A station may make this step: none of its deadlines has been reached, and it hears nothing or
something that the other one has said, when it listens to its radio. -/
structure Permits (w : Meeting α) (i : Bool) (heard : Option Transmission) (clock : Readings) :
    Prop where
  calm : (w.station i).node.Calm clock.start
  said : ∀ t ∈ heard, t ∈ w.unheard (!i)
  attends : ∀ t ∈ heard, (w.station i).node.patience clock.start ≠ none

/-- The meetings that permitted steps lead to, in whatever order. -/
inductive Run [Application α] (reports : Bool) : Meeting α → Meeting α → Prop
  | refl (w : Meeting α) : Run reports w w
  | step {w w' w'' : Meeting α} {i : Bool} {heard : Option Transmission} {clock : Readings} :
      Run reports w w' → w'.Permits i heard clock → w'.move reports i heard clock = .ok w'' →
      Run reports w w''

/-- All that was said has been heard. -/
def Over (w : Meeting α) : Prop := ∀ i, w.unheard i = []

/-- One of the two has a token: it is master, or has just taken one. -/
def Survives (w : Meeting α) : Prop :=
  ∃ i, (w.station i).node.master = true ∨ (w.station i).node.state.hasTaken = true ∨
    (w.station i).node.state = .speaking

/-- Two nodes of one network with a token each, of which each has said so. -/
structure Begins [Application α] (w : Meeting α) (reports : Bool) (session : Session) : Prop where
  reachable : ∀ i, (w.station i).Reachable
  apart : ∀ i, w.own (!i) ≠ w.own i
  session : ∀ i, (w.station i).node.session = some session
  eligible : ∀ i, (w.station i).node.table.isEligible (w.own (!i)) = true
  held : ∀ i, (w.station i).node.rounds.held.toNat < lastRound
  seen : ∀ i, (w.station i).node.rounds.seen.toNat < lastRound
  said : ∀ i, ∃ m, (w.station i).node.Tells m ∧
    w.unheard i = [.ofEmission reports (w.own i) (.toAll m)]

/-- Each of the two offers its token to the other one, and both tokens are of one round. -/
def Mutual (w : Meeting α) : Prop :=
  ∃ session round, ∀ i, (w.station i).node.state = .awaitingTaker (w.own (!i)) ∧
    (w.station i).node.offer = some (.turn (w.own (!i)) session round)

end Meeting

namespace Twins

open Meeting

variable {α : Type} {d : Twins} {reports i : Bool} {w w' : Meeting α}
  {heard : Option Transmission} {clock : Readings}

/-! ## What holds all the time -/

/-- A frame that the node of token `i` has put on the air. -/
def Said (d : Twins) (reports i : Bool) (t : Transmission) : Prop :=
  ∃ e : Emission, t = .ofEmission reports (d.own i) e ∧ e.message.WellFormed ∧
    (e.message = d.frame i ∨ e.message = .ack (d.frame (!i)).encode)

/-- The frame that tells of token `i`, on the air. -/
def shown (d : Twins) (reports i : Bool) : Transmission :=
  .ofEmission reports (d.own i) (.toAll (d.frame i))

/-- **What holds all the time while two tokens meet.** -/
structure Invariant [Application α] (d : Twins) (reports : Bool) (w : Meeting α) : Prop where
  reachable : ∀ i, (w.station i).Reachable
  fits : ∀ i, d.Fits i (w.station i).node
  said : ∀ i, ∀ t ∈ w.unheard i, d.Said reports i t

/-- The newer token is offered to a node that lags behind and has not answered. -/
structure Pending (d : Twins) (reports : Bool) (w : Meeting α) (i : Bool) : Prop where
  overtakes : d.Overtakes i
  waits : d.Waits i (w.station i).node
  lags : d.Lags (!i) (w.station (!i)).node
  unanswered : ∀ t ∈ w.unheard (!i), ¬t.acknowledges reports = true
  quiet : ¬d.Offers (!i) → ∀ t ∈ w.unheard i, ¬t.acknowledges reports = true

/-- **One token is not lost**: a node keeps it, or waits for the other one to take it. -/
def Safe (d : Twins) (reports : Bool) (w : Meeting α) : Prop :=
  (∃ i, d.Keeps i (w.station i).node) ∨ ∃ i, d.Pending reports w i

/-- A node that keeps its token has it. -/
theorem Keeps.survives {s : Station α} (h : d.Keeps i s.node) (hsound : s.node.Sound) :
    s.node.master = true ∨ s.node.state.hasTaken = true ∨ s.node.state = .speaking := by
  have hmaster := hsound.master
  unfold Keeps at h
  cases hs : s.node.state <;> simp only [hs] at h hmaster
  case accepting => exact Or.inr (Or.inl rfl)
  case speaking => exact Or.inr (Or.inr rfl)
  all_goals exact Or.inl hmaster

/-- There are only two of them. -/
theorem eq_or_eq_not (j i : Bool) : j = i ∨ j = !i := by
  by_cases h : j = i
  · exact Or.inl h
  · exact Or.inr (Bool.eq_not_of_ne h)

variable [Application α]

theorem Invariant.survives (h : d.Invariant reports w) (hs : d.Safe reports w) : w.Survives := by
  rcases hs with ⟨i, hk⟩ | ⟨i, hp⟩
  · exact ⟨i, hk.survives (Station.sound_of_reachable (h.reachable i))⟩
  · have hmaster := (Station.sound_of_reachable (h.reachable i)).master
    rw [hp.waits.state] at hmaster
    exact ⟨i, Or.inl hmaster⟩

/-- **What a station hears is what the other one has said.** -/
theorem Invariant.hears (h : d.Invariant reports w) (hp : w.Permits i heard clock) {m : Inbound}
    (hm : ((w.station i).hear (slot reports heard) clock.start).1 = some m) : d.Hears i m ∧
      (m.message.tag = .ack → ∃ t ∈ w.unheard (!i), t.acknowledges reports = true) := by
  obtain ⟨p, hp', hread⟩ := Station.read_of_hear_slot hm
  obtain ⟨t, ht, rfl⟩ := Option.map_eq_some_iff.1 hp'
  have hunheard := hp.said t ht
  obtain ⟨e, rfl, hwf, hsaid⟩ := h.said _ t hunheard
  obtain ⟨rfl, -⟩ := Transmission.eq_of_read hwf hread
  rw [Bool.not_not] at hsaid
  exact ⟨⟨rfl, rfl, hsaid⟩, fun htag => ⟨_, hunheard, Transmission.acknowledges_ofEmission.2 htag⟩⟩

/-! ## Moves -/

/-- A move in full: the station steps, the other one stands still, and what is unheard grows by the
acknowledgements that the station has sent, and loses what it has heard. -/
theorem exists_step_of_move (h : w.move reports i heard clock = .ok w') : ∃ s slot' events,
    (w.station i).step (slot reports heard) clock = .ok (s, slot', events) ∧
    w'.station i = s ∧ w'.station (!i) = w.station (!i) ∧
    w'.unheard i = w.unheard i ++ (slot'.outgoing.map fun q =>
      (⟨w.own i, q.1, q.2⟩ : Transmission)).filter (Transmission.acknowledges reports) ∧
    w'.unheard (!i) = match heard with
      | some t => (w.unheard (!i)).erase t
      | none => w.unheard (!i) := by
  unfold move at h
  split at h
  · exact absurd h nofun
  · rename_i s slot' events hstep
    obtain rfl := Except.ok.inj h
    have hother : (!i) ≠ i := fun he => (Bool.not_eq_self i).1 he
    refine ⟨s, slot', events, hstep, if_pos rfl, if_neg hother, if_pos rfl, ?_⟩
    dsimp only
    rw [if_neg hother]
    cases heard <;> rfl

/-- After a move, nothing is unheard but what was before, and acknowledgements of the station. -/
theorem move_eq_ok (h : w.move reports i heard clock = .ok w') : ∃ r taken,
    (w.station i).Steps clock ((w.station i).hear (slot reports heard) clock.start).1 r taken
      (w'.station i) ∧
    ((w.station i).Reachable → (w'.station i).Reachable) ∧
    w'.station (!i) = w.station (!i) ∧
    (∀ t ∈ w'.unheard i, t ∈ w.unheard i ∨ t.acknowledges reports = true ∧
      ∃ e ∈ r.emission, t = .ofEmission reports (w.own i) e) ∧
    ∀ t ∈ w'.unheard (!i), t ∈ w.unheard (!i) := by
  obtain ⟨s, slot', events, hstep, rfl, hother, hself, hrest⟩ := exists_step_of_move h
  obtain ⟨r, taken, hr, hout⟩ := Station.step_slot_eq_ok rfl hstep
  refine ⟨r, taken, hr, fun hreach => hreach.step hstep, hother, fun t ht => ?_, fun t ht => ?_⟩
  · rw [hself] at ht
    rcases List.mem_append.1 ht with ht | ht
    · exact Or.inl ht
    · obtain ⟨hmem, hack⟩ := List.mem_filter.1 ht
      obtain ⟨q, hq, rfl⟩ := List.mem_map.1 hmem
      obtain ⟨e, he, rfl⟩ := hout q hq
      exact Or.inr ⟨hack, e, he, rfl⟩
  · rw [hrest] at ht
    split at ht
    · exact List.mem_of_mem_erase ht
    · exact ht

/-- **Every permitted step keeps the invariant.** -/
theorem Invariant.move (h : d.Invariant reports w) (hp : w.Permits i heard clock)
    (hw : w.move reports i heard clock = .ok w') : d.Invariant reports w' := by
  obtain ⟨r, taken, hr, hreach, hother, hself, hrest⟩ := move_eq_ok hw
  have hleads := leads_react (h.fits i) hp.calm (fun m hm => (h.hears hp hm).1) hr.reacts
  obtain ⟨timers, random, e, a, hn, -⟩ := hr.node_eq
  rw [hleads.marks] at hn
  have each : ∀ {P : Bool → Prop}, P i → P (!i) → ∀ j, P j := by
    intro P hi hni j
    rcases eq_or_eq_not j i with rfl | rfl
    · exact hi
    · exact hni
  refine ⟨each (hreach (h.reachable i)) ?_, each ?_ ?_, each (fun t ht => ?_) fun t ht => ?_⟩
  · rw [hother]
    exact h.reachable (!i)
  · rw [hn]
    exact ⟨hleads.fits.own, hleads.fits.session, hleads.fits.eligible, hleads.fits.deferred,
      hleads.fits.place⟩
  · rw [hother]
    exact h.fits (!i)
  · rcases hself t ht with ht | ⟨hack, e, he, rfl⟩
    · exact h.said i t ht
    · have htag := Transmission.acknowledges_ofEmission.1 hack
      obtain ⟨echo, hm⟩ := Message.eq_ack_of_tag htag
      refine ⟨e, ?_, ?_, Or.inr ?_⟩
      · rw [← (h.fits i).own]
        rfl
      · rw [hm]
        exact Message.wellFormed_ack echo
      · rw [hm, hleads.answers e he echo hm]
  · exact h.said _ t (hrest t ht)

/-- A node that keeps its token keeps it in every permitted step, its own and the other's. -/
theorem Keeps.move {j : Bool} (hk : d.Keeps j (w.station j).node) (h : d.Invariant reports w)
    (hp : w.Permits i heard clock) (hw : w.move reports i heard clock = .ok w') :
    d.Keeps j (w'.station j).node := by
  obtain ⟨r, taken, hr, -, hother, -⟩ := move_eq_ok hw
  rcases eq_or_eq_not j i with rfl | rfl
  · obtain ⟨timers, random, e, a, hn, -⟩ := hr.node_eq
    rw [hn]
    exact (leads_react (h.fits j) hp.calm (fun m hm => (h.hears hp hm).1) hr.reacts).keeps hk
  · rwa [hother]

/-- When the giver steps, it goes on waiting. -/
theorem Pending.move_giver (hpending : d.Pending reports w i) (h : d.Invariant reports w)
    (hp : w.Permits i heard clock) (hw : w.move reports i heard clock = .ok w') :
    d.Pending reports w' i := by
  obtain ⟨r, taken, hr, -, hother, hself, hrest⟩ := move_eq_ok hw
  have hheard : ∀ m ∈ ((w.station i).hear (slot reports heard) clock.start).1,
      d.Hears i m ∧ m.message.tag ≠ .ack := by
    intro m hm
    obtain ⟨hhears, hack⟩ := h.hears hp hm
    refine ⟨hhears, fun htag => ?_⟩
    obtain ⟨t, ht, hacks⟩ := hack htag
    exact hpending.unanswered t ht hacks
  obtain ⟨hwaits, hoffers⟩ :=
    hpending.waits.react hpending.overtakes hp.calm hheard hr.reacts
  obtain ⟨timers, random, e, a, hn, -⟩ := hr.node_eq
  refine ⟨hpending.overtakes, ?_, ?_, fun t ht => hpending.unanswered t (hrest t ht),
    fun hno t ht hack => ?_⟩
  · rw [hn]
    exact ⟨hwaits.state, hwaits.offer⟩
  · rw [hother]
    exact hpending.lags
  · rcases hself t ht with ht | ⟨-, e, he, rfl⟩
    · exact hpending.quiet hno t ht hack
    · obtain ⟨echo, hm⟩ := Message.eq_ack_of_tag (Transmission.acknowledges_ofEmission.1 hack)
      exact hno (hoffers e he echo hm)

/-- When the other node steps, it takes the token, or it has not heard of it yet. -/
theorem Pending.move_taker (hpending : d.Pending reports w (!i)) (h : d.Invariant reports w)
    (hp : w.Permits i heard clock) (hw : w.move reports i heard clock = .ok w') :
    d.Safe reports w' := by
  obtain ⟨ho, hwaits, hlags, hunanswered, hquiet⟩ := hpending
  rw [Bool.not_not] at hlags hunanswered
  obtain ⟨r, taken, hr, -, hother, hself, hrest⟩ := move_eq_ok hw
  have hack : ¬d.Offers i → ∀ m ∈ ((w.station i).hear (slot reports heard) clock.start).1,
      m.message.tag ≠ .ack := by
    intro hno m hm htag
    obtain ⟨t, ht, hacks⟩ := (h.hears hp hm).2 htag
    exact hquiet (by rwa [Bool.not_not]) t ht hacks
  obtain ⟨timers, random, e, a, hn, -⟩ := hr.node_eq
  rcases hlags.react ho (h.fits i) hp.calm (fun m hm => (h.hears hp hm).1) hack hr.reacts with
    ⟨hlags', hnone⟩ | hkeeps
  · refine Or.inr ⟨!i, ho, by rwa [hother], ?_, fun t ht hacks => ?_,
      fun hno t ht => hquiet hno t (hrest t ht)⟩
    · rw [Bool.not_not, hn]
      exact hlags'
    · rw [Bool.not_not] at ht
      rcases hself t ht with ht | ⟨-, e, he, rfl⟩
      · exact hunanswered t ht hacks
      · rw [hnone] at he
        exact absurd he nofun
  · refine Or.inl ⟨i, ?_⟩
    rw [hn]
    exact hkeeps

/-- **Every permitted step keeps one token from being lost.** -/
theorem Safe.move (hs : d.Safe reports w) (h : d.Invariant reports w)
    (hp : w.Permits i heard clock) (hw : w.move reports i heard clock = .ok w') :
    d.Safe reports w' := by
  rcases hs with ⟨j, hk⟩ | ⟨j, hpending⟩
  · exact Or.inl ⟨j, hk.move h hp hw⟩
  · rcases eq_or_eq_not j i with rfl | rfl
    · exact Or.inr ⟨j, hpending.move_giver h hp hw⟩
    · exact hpending.move_taker h hp hw

/-- A permitted step happens. -/
theorem Invariant.exists_move (h : d.Invariant reports w) (i : Bool)
    (heard : Option Transmission) (clock : Readings) :
    ∃ w', w.move reports i heard clock = .ok w' := by
  have hfits := h.fits i
  have hplace := hfits.place
  unfold Place at hplace
  have hstates : (w.station i).node.state ≠ .requesting ∧ (w.station i).node.state ≠ .founding ∧
      (w.station i).node.state ≠ .alone := by
    cases hs : (w.station i).node.state <;> simp only [hs] at hplace <;>
      exact ⟨nofun, nofun, nofun⟩
  obtain ⟨⟨s', slot', events⟩, hstep⟩ := Station.exists_step_of_state hstates.1 hstates.2.1
    hstates.2.2 (fun _ => hfits.exists_successor) (slot reports heard) clock
  unfold Meeting.move
  rw [hstep]
  exact ⟨_, rfl⟩

end Twins

/-! ## Runs -/

namespace Meeting

variable {α : Type} [Application α] {reports : Bool} {w w' : Meeting α}

theorem Run.trans {w'' : Meeting α} (h : Run reports w w') (h' : Run reports w' w'') :
    Run reports w w'' := by
  induction h' with
  | refl => exact h
  | step _ hp hm ih => exact ih.step hp hm

/-- Whatever holds of a meeting that begins holds of all meetings that it leads to. -/
theorem Run.invariant {d : Twins} (h : d.Invariant reports w) (hr : Run reports w w') :
    d.Invariant reports w' ∧ (d.Safe reports w → d.Safe reports w') := by
  induction hr with
  | refl => exact ⟨h, id⟩
  | step _ hp hm ih =>
    obtain ⟨hinv, hsafe⟩ := ih
    exact ⟨hinv.move hp hm, fun hs => (hsafe hs).move hinv hp hm⟩

end Meeting

end RadioRing
