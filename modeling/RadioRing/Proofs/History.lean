import RadioRing.Proofs.Inboxes
import RadioRing.Proofs.Runs
import RadioRing.Simulation.Run

/-!
# Proofs/History — what many stations have done so far

A `Simulation.Run` is any order in which nodes are switched on and off and take single steps, while
clock, losses, filter and inboxes are changed at will, **as long as nobody but the nodes puts frames
on the air**.  It keeps the moments of all stations (`History`), and so every frame that was taken
(`History.transmissions`); a medium that records has exactly these (`Run.frames_eq`).  Whatever a
`Simulation` does by itself is such a run (`Run.step`, `Run.advance`).
-/

namespace RadioRing

/-! ## A moment on the medium -/

/-- The frame of a recorded transmission. -/
def Envelope.transmission (e : Envelope) : Transmission := ⟨e.sender, e.dest, e.bytes⟩

namespace Moment

variable {α ρ : Type} {x : Moment α} {radio radio' : ρ}

/-- The frame that the step puts on the air, if `a` is the address of its node. -/
def sent (x : Moment α) (a : Address) : Option Transmission :=
  if x.taken then x.reaction.emission.map (Transmission.ofEmission true a) else none

/-- A node has transmitted what it asked to send, if its radio took it. -/
theorem sent_eq_some_iff {a : Address} {f : Transmission} :
    x.sent a = some f ↔ x.taken = true ∧ ∃ e, x.reaction.emission = some e ∧
      f = ⟨a, e.dest, e.message.encode⟩ := by
  unfold sent
  cases x.taken with
  | false => simp
  | true =>
    rw [if_pos rfl, Option.map_eq_some_iff]
    exact ⟨fun ⟨e, he, hf⟩ => ⟨rfl, e, he, hf.symm⟩, fun ⟨_, e, he, hf⟩ => ⟨e, he, hf.symm⟩⟩

variable [Application α] [Radio ρ]

theorem HappensOn.step_eq {s' : Station α} {radio'' : ρ} {events : List Event}
    (h : x.HappensOn radio radio')
    (hstep : x.before.step radio x.clock = .ok (s', radio'', events)) :
    s' = x.after ∧ radio'' = radio' := by
  obtain ⟨events', h, -⟩ := h
  obtain ⟨rfl, hrest⟩ := Prod.mk.inj (Except.ok.inj (hstep.symm.trans h))
  exact ⟨rfl, (Prod.mk.inj hrest).1⟩

variable {φ : Type} [DropFilter φ] {m : Medium φ} {a : Address} {antenna : Antenna φ}

/-- What the step of the node `a` has to do with the medium, which is `m'` afterwards. -/
structure Changes (x : Moment α) (a : Address) (m m' : Medium φ) : Prop where
  /-- What it hears has waited for its node. -/
  heard : ∀ i ∈ x.heard, ∃ p, m.Waits a p ∧ (x.before.node.link.read true p).1 = some i
  /-- Nothing new waits for anybody but the frame that it sends. -/
  waits : ∀ b p, m'.Waits b p → m.Waits b p ∨ ∃ f ∈ x.sent a, p = f.packet true
  /-- That frame is recorded. -/
  recorded : ∀ seen, m.recorded = some seen → ∃ new : List Envelope,
    m'.recorded = some (new.reverse ++ seen) ∧ new.map Envelope.transmission = (x.sent a).toList

/-- **A step hears what waited for its node, and adds to the medium the frame that it sends.** -/
theorem HappensOn.changes (h : x.HappensOn (Antenna.mk m a) antenna) :
    x.Changes a m antenna.medium := by
  obtain ⟨events, hstep, hheard, hreact, htaken⟩ := h
  obtain ⟨r, hr, hradio⟩ := Station.step_eq_ok hstep
  obtain rfl : r = x.reaction := Except.ok.inj (hr.reacts.symm.trans (hheard ▸ hreact))
  obtain ⟨hwaited, m', hm', hrecorded, hwaits⟩ := x.before.hear_antenna m a x.clock.start
  rw [hm'] at hradio htaken
  rcases Station.emit_antenna x.before.node.link m' a x.reaction.emission with
    ⟨e, m'', he, hemits, hantenna, hrecorded', hwaits'⟩ | ⟨hemits, hantenna⟩
  · have hsent : x.sent a = some ⟨a, e.dest, e.message.encode⟩ :=
      sent_eq_some_iff.2 ⟨htaken.symm.trans hemits, e, he, rfl⟩
    rw [hradio, hantenna]
    exact {
      heard := hheard ▸ hwaited
      waits := fun b p hp => (hwaits' b p hp).imp (hwaits b p) fun hp => ⟨_, hsent, hp⟩
      recorded := fun seen hseen => ⟨[⟨m'.now, a, e.dest, e.message.encode⟩],
        by rw [hrecorded', hrecorded, hseen]; rfl, by rw [hsent]; rfl⟩ }
  · have hsent : x.sent a = none := by
      unfold sent
      rw [htaken.symm.trans hemits]
      rfl
    rw [hradio, hantenna]
    exact {
      heard := hheard ▸ hwaited
      waits := fun b p hp => Or.inl (hwaits b p hp)
      recorded := fun seen hseen => ⟨[], hrecorded.trans hseen, by rw [hsent]; rfl⟩ }

end Moment

/-! ## Histories -/

/-- The moments of many stations, each with the address of its node, the first one first. -/
abbrev History := List (Address × Moment Beacon)

namespace History

variable {h : History} {f : Transmission}

/-- The frames that were put on the air, the first one first. -/
def transmissions (h : History) : List Transmission := h.filterMap fun q => q.2.sent q.1

theorem mem_transmissions_iff : f ∈ h.transmissions ↔ ∃ a x, (a, x) ∈ h ∧ x.sent a = some f := by
  unfold transmissions
  rw [List.mem_filterMap]
  exact Prod.exists

theorem transmissions_append (h h' : History) :
    transmissions (h ++ h') = transmissions h ++ transmissions h' :=
  List.filterMap_append

theorem transmissions_concat (h : History) (a : Address) (x : Moment Beacon) :
    transmissions (h ++ [(a, x)]) = transmissions h ++ (x.sent a).toList := by
  rw [transmissions_append, transmissions, transmissions, List.filterMap_cons]
  cases x.sent a <;> rfl

/-- **Every frame was sent in a moment, after the frames before it.** -/
theorem exists_of_transmissions_eq {early late : List Transmission}
    (hf : h.transmissions = early ++ f :: late) : ∃ before a x after,
      h = before ++ (a, x) :: after ∧ x.sent a = some f ∧ transmissions before = early := by
  obtain ⟨before, rest, rfl, rfl, hrest⟩ := List.filterMap_eq_append_iff.1 hf
  obtain ⟨silent, ⟨a, x⟩, after, rfl, hsilent, hx, -⟩ := List.filterMap_eq_cons_iff.1 hrest
  refine ⟨before ++ silent, a, x, after, by rw [List.append_assoc], hx, ?_⟩
  have hnone : transmissions silent = [] := List.filterMap_eq_nil_iff.2 hsilent
  rw [transmissions_append, hnone, List.append_nil]
  rfl

end History

/-! ## Runs -/

namespace Simulation

variable {φ : Type}

/-- Every node is switched off, and nothing waits for anybody. -/
structure Fresh (s : Simulation φ) : Prop where
  off : s.stations = .empty
  silent : ∀ a p, ¬s.medium.Waits a p

/-- A simulation starts with every node switched off and nothing on the air. -/
theorem fresh_ofSeed (roster : List Address) (timings : Timings) (seed : UInt64) :
    (ofSeed roster timings seed : Simulation φ).Fresh where
  off := rfl
  silent := fun _ _ ⟨_, hget, _⟩ => absurd hget nofun

variable [DropFilter φ]

/-- The node `a` takes the step `x`. -/
structure Moves (s : Simulation φ) (a : Address) (x : Moment Beacon) (s' : Simulation φ) :
    Prop where
  powered : s.stations.get? a = some x.before
  clock : x.clock = .still s.now
  happens : ∃ antenna, x.HappensOn (Antenna.mk s.medium a) antenna ∧
    s' = { s with medium := antenna.medium, stations := s.stations.insert a x.after }

/-- What can come about from `s`, and the moments on the way.  In a run that is `recording` nothing
that was recorded is dropped. -/
inductive Run (recording : Bool) (s : Simulation φ) : History → Simulation φ → Prop
  | refl : Run recording s [] s
  | powerOn {h : History} {t t' : Simulation φ} {a : Address} {result : Except SettingsError Unit} :
      Run recording s h t → t.powerOn a = .ok (result, t') → Run recording s h t'
  | powerOff {h : History} {t : Simulation φ} (a : Address) :
      Run recording s h t → Run recording s h (t.powerOff a)
  | move {h : History} {t t' : Simulation φ} {a : Address} {x : Moment Beacon} :
      Run recording s h t → t.Moves a x t' → Run recording s (h ++ [(a, x)]) t'
  | adjust {h : History} {t : Simulation φ} {medium : Medium φ} (tick : Duration) :
      Run recording s h t → t.medium.Adjusts medium →
      (recording = true → medium.recorded = t.medium.recorded) →
      Run recording s h { t with medium, tick }

variable {recording : Bool} {s t t' : Simulation φ} {h early late : History} {a : Address}
  {x : Moment Beacon}

omit [DropFilter φ] in
/-- **What switching a node on does**: nothing but to use up a seed, or a station that has just been
booted is at its address and has an empty inbox. -/
theorem powerOn_eq_ok {result : Except SettingsError Unit}
    (h : s.powerOn a = .ok (result, t)) : (t.stations = s.stations ∧ t.medium = s.medium) ∨
      ∃ station : Station Beacon, station.Booted ∧ station.node.own = a ∧
        t.stations = s.stations.insert a station ∧ t.medium = s.medium.attach a := by
  unfold powerOn at h
  dsimp only at h
  split at h
  · exact absurd h nofun
  · obtain rfl := (Prod.mk.inj (Except.ok.inj h)).2
    exact Or.inl ⟨rfl, rfl⟩
  · rename_i station hboot
    obtain rfl := (Prod.mk.inj (Except.ok.inj h)).2
    refine Or.inr ⟨station, ⟨_, _, _, hboot⟩, ?_, rfl, rfl⟩
    rw [(Station.eq_of_boot hboot).2]
    rfl

/-- **A step of a node is a moment of it**, if it is switched on. -/
theorem stepNode_eq_ok {remarks : List Remark} (h : s.stepNode a = .ok (t, remarks)) :
    t = s ∨ ∃ x, s.Moves a x t := by
  unfold stepNode at h
  split at h
  · exact Or.inl (Prod.mk.inj (Except.ok.inj h)).1.symm
  · rename_i station hget
    split at h
    · exact absurd h nofun
    · rename_i hstep
      obtain ⟨x, hx, rfl, hclock, rfl⟩ := Station.exists_happensOn hstep
      exact Or.inr ⟨x, hget, hclock, _, hx, (Prod.mk.inj (Except.ok.inj h)).1.symm⟩

theorem stepNodes_cons_eq_ok {rest : List Address} {remarks : List Remark}
    (h : s.stepNodes (a :: rest) = .ok (t, remarks)) : ∃ u first more,
      s.stepNode a = .ok (u, first) ∧ u.stepNodes rest = .ok (t, more) := by
  simp only [Simulation.stepNodes, bind, Except.bind] at h
  split at h
  · exact absurd h nofun
  · rename_i hfirst
    split at h
    · exact absurd h nofun
    · rename_i hrest
      obtain rfl := (Prod.mk.inj (Except.ok.inj h)).1
      exact ⟨_, _, _, hfirst, hrest⟩

/-- **A step of all nodes is one of each, and then a tick of the clock.** -/
theorem step_eq_ok {remarks : List Remark} (h : s.step = .ok (t, remarks)) :
    ∃ u, s.stepNodes s.stations.keys = .ok (u, remarks) ∧
      t = { u with medium := u.medium.advance u.tick } := by
  simp only [Simulation.step, bind, Except.bind] at h
  split at h
  · exact absurd h nofun
  · rename_i hnodes
    obtain ⟨ht, rfl⟩ := Prod.mk.inj (Except.ok.inj h)
    exact ⟨_, hnodes, ht.symm⟩

namespace Run

/-- A moment of a run happens where the run has led before. -/
theorem of_middle (hrun : s.Run recording h t) (hh : h = early ++ (a, x) :: late) :
    ∃ u u', s.Run recording early u ∧ u.Moves a x u' := by
  induction hrun generalizing late with
  | refl => simp at hh
  | powerOn _ _ ih => exact ih hh
  | powerOff _ _ ih => exact ih hh
  | adjust _ _ _ _ ih => exact ih hh
  | @move h u u' b y hrun hy ih =>
    rcases List.eq_nil_or_concat late with rfl | ⟨late, z, rfl⟩
    · obtain ⟨rfl, hlast⟩ := List.append_inj' hh rfl
      obtain ⟨rfl, rfl⟩ := Prod.mk.inj (List.singleton_inj.1 hlast)
      exact ⟨u, u', hrun, hy⟩
    · rw [List.concat_eq_append, ← List.cons_append, ← List.append_assoc] at hh
      exact ih (List.append_inj' hh rfl).1

/-- In a run that need not be recording a medium can be set up in any way. -/
theorem control {medium : Medium φ} (hrun : s.Run false h t) (hm : t.medium.Controls medium) :
    s.Run false h { t with medium } :=
  hrun.adjust t.tick hm.adjusts nofun

/-- A moment of a run stands between those before it and those after it. -/
theorem split (hrun : s.Run recording h t) (i : Fin h.length) :
    s.Run recording (h.take i ++ ((h.get i).1, (h.get i).2) :: h.drop (i + 1)) t := by
  rwa [← Station.eq_take_append_get h i]

/-- **What is recorded from the start is what was sent.** -/
theorem frames_eq (hrun : s.Run true h t) (hs : s.medium.recorded = some []) :
    t.medium.frames.map Envelope.transmission = h.transmissions := by
  -- The record grows at its front, and is turned round when it is read.
  suffices hseen : ∃ seen, t.medium.recorded = some seen ∧
      seen.reverse.map Envelope.transmission = h.transmissions by
    obtain ⟨seen, hseen, heq⟩ := hseen
    rwa [Medium.frames, hseen]
  induction hrun with
  | refl => exact ⟨[], hs, rfl⟩
  | powerOn _ hon ih =>
    rcases powerOn_eq_ok hon with ⟨-, hmedium⟩ | ⟨station, -, -, -, hmedium⟩
    · rwa [hmedium]
    · rwa [hmedium]
  | powerOff _ _ ih => exact ih
  | adjust _ _ _ hsame ih =>
    obtain ⟨seen, hseen, heq⟩ := ih
    exact ⟨seen, (hsame rfl).trans hseen, heq⟩
  | move _ hx ih =>
    obtain ⟨seen, hseen, heq⟩ := ih
    obtain ⟨antenna, hhappens, rfl⟩ := hx.happens
    obtain ⟨new, hrecorded, hnew⟩ := hhappens.changes.recorded seen hseen
    refine ⟨new.reverse ++ seen, hrecorded, ?_⟩
    rw [List.reverse_append, List.reverse_reverse, List.map_append, heq, hnew,
      History.transmissions_concat]

theorem stepNode {remarks : List Remark} (hrun : s.Run recording h t)
    (hstep : t.stepNode a = .ok (t', remarks)) : ∃ late, s.Run recording (h ++ late) t' := by
  rcases stepNode_eq_ok hstep with rfl | ⟨x, hx⟩
  · exact ⟨[], by rwa [List.append_nil]⟩
  · exact ⟨[(a, x)], hrun.move hx⟩

/-- A step of each node in turn continues a run. -/
theorem stepNodes {addresses : List Address} {remarks : List Remark} (hrun : s.Run recording h t)
    (hstep : t.stepNodes addresses = .ok (t', remarks)) :
    ∃ late, s.Run recording (h ++ late) t' := by
  induction addresses generalizing h t remarks with
  | nil =>
    obtain rfl := (Prod.mk.inj (Except.ok.inj hstep)).1
    exact ⟨[], by rwa [List.append_nil]⟩
  | cons a rest ih =>
    obtain ⟨u, _, _, hfirst, hrest⟩ := stepNodes_cons_eq_ok hstep
    obtain ⟨first, hrun⟩ := hrun.stepNode hfirst
    obtain ⟨late, hrun⟩ := ih hrun hrest
    exact ⟨first ++ late, by rwa [← List.append_assoc]⟩

/-- **A step of all nodes is a run.** -/
theorem step {remarks : List Remark} (hrun : s.Run recording h t)
    (hstep : t.step = .ok (t', remarks)) : ∃ late, s.Run recording (h ++ late) t' := by
  obtain ⟨u, hnodes, rfl⟩ := step_eq_ok hstep
  obtain ⟨late, hrun⟩ := hrun.stepNodes hnodes
  exact ⟨late, hrun.adjust _ (Medium.adjusts_advance _ _) fun _ => rfl⟩

/-- **A stretch of time is a run**, however it ends. -/
theorem advance {stop : Simulation φ → Option Bool} {fuel : Nat} {remarks : List Remark}
    {o : Outcome φ} (hrun : s.Run recording h t)
    (hadvance : Simulation.advance stop fuel t remarks = .ok o) :
    ∃ late, s.Run recording (h ++ late) o.simulation := by
  induction fuel generalizing h t remarks with
  | zero =>
    obtain rfl := Except.ok.inj hadvance
    exact ⟨[], by rwa [List.append_nil]⟩
  | succ fuel ih =>
    unfold Simulation.advance at hadvance
    split at hadvance
    · obtain rfl := Except.ok.inj hadvance
      exact ⟨[], by rwa [List.append_nil]⟩
    · split at hadvance
      · exact absurd hadvance nofun
      · rename_i hstep
        obtain ⟨first, hrun⟩ := hrun.step hstep
        obtain ⟨late, hrun⟩ := ih hrun hadvance
        exact ⟨first ++ late, by rwa [← List.append_assoc]⟩

end Run

/-! ## Runs that are played -/

/-- What can be asked of a simulation. -/
inductive Action
  | powerOn (a : Address)
  | move (a : Address)
  | wait (d : Duration)

/-- The step that the node `a` takes, if it is switched on, and what it leads to. -/
def move? (s : Simulation φ) (a : Address) : Option (Moment Beacon × Simulation φ) := do
  let station ← s.stations.get? a
  let x ← station.moment? (Antenna.mk s.medium a) (.still s.now)
  let p ← (station.step (Antenna.mk s.medium a) (.still s.now)).toOption
  return (x, { s with medium := p.2.1.medium, stations := s.stations.insert a x.after })

theorem moves_of_move? (hx : s.move? a = some (x, t)) : s.Moves a x t := by
  simp only [move?, bind, Option.bind_eq_some_iff, pure, Option.some.injEq, Prod.mk.injEq] at hx
  obtain ⟨station, hget, x, hx, ⟨s', antenna, events⟩, hstep, rfl, rfl⟩ := hx
  obtain ⟨antenna', hhappens, rfl, hclock⟩ := Station.happensOn_of_moment? hx
  obtain ⟨-, rfl⟩ := hhappens.step_eq (hclock ▸ Station.eq_ok_of_toOption hstep)
  exact ⟨hget, hclock, antenna, hhappens, rfl⟩

/-- The moments of a simulation that is asked to do one thing after the other, and what it is in the
end. -/
def play? (s : Simulation φ) : List Action → Option (History × Simulation φ)
  | [] => some ([], s)
  | .powerOn a :: rest => do
    let p ← (s.powerOn a).toOption
    p.2.play? rest
  | .wait d :: rest => { s with medium := s.medium.advance d }.play? rest
  | .move a :: rest => do
    let q ← s.move? a
    let p ← q.2.play? rest
    return ((a, q.1) :: p.1, p.2)

/-- **What is played is a run.** -/
theorem Run.play {actions : List Action} (hrun : s.Run recording h t)
    (hplay : t.play? actions = some (late, t')) : s.Run recording (h ++ late) t' := by
  induction actions generalizing h t late with
  | nil =>
    obtain ⟨rfl, rfl⟩ := Prod.mk.inj (Option.some.inj hplay)
    rwa [List.append_nil]
  | cons action rest ih =>
    cases action with
    | powerOn a =>
      simp only [play?, bind, Option.bind_eq_some_iff] at hplay
      obtain ⟨⟨result, u⟩, hon, hplay⟩ := hplay
      exact ih (hrun.powerOn (Station.eq_ok_of_toOption hon)) hplay
    | wait d => exact ih (hrun.adjust t.tick (t.medium.adjusts_advance d) fun _ => rfl) hplay
    | move a =>
      simp only [play?, bind, Option.bind_eq_some_iff, pure, Option.some.injEq,
        Prod.mk.injEq] at hplay
      obtain ⟨⟨x, u⟩, hx, ⟨late, u'⟩, hplay, rfl, rfl⟩ := hplay
      rw [List.append_cons]
      exact ih (hrun.move (moves_of_move? hx)) hplay

/-- **What is played is a run of the simulation.** -/
theorem run_of_play? {actions : List Action} {p : History × Simulation φ}
    (hplay : s.play? actions = some p) : s.Run recording p.1 p.2 :=
  Run.play .refl hplay

end Simulation

end RadioRing
