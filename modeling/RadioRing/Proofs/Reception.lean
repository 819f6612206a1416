import RadioRing.Proofs.Outcome

/-!
# Proofs/Reception — a step as one message heard and one frame sent

`Station.step` runs the radio and the rule of the state together; `Station.Steps` keeps of it what
the rule sees: **the message that was heard, the reaction to it, and whether the radio took the
frame.**  Every step of a station on any radio is one of these (`step_eq_ok`), and what it hears has
passed the filter of its link (`passes_of_hear`).
-/

namespace RadioRing

namespace Link

/-- What the filter of a link asks of a message. -/
structure Passes (l : Link) (m : Inbound) : Prop where
  foreign : m.sender ≠ l.own
  known : m.sender ∈ l.roster
  meant : m.dest = l.own ∨ m.dest.isEveryone = true
  reads : Message.decode m.raw = .ok m.message

/-- **A packet is let through exactly if its message passes.** -/
theorem fst_read_eq_some_iff {l : Link} {reports : Bool} {p : Packet} {m : Inbound} :
    (l.read reports p).1 = some m ↔
      senderOf reports p = some (m.sender, m.raw) ∧ p.dest = m.dest ∧ l.Passes m := by
  obtain ⟨sender, dest, message, raw⟩ := m
  unfold read
  dsimp only
  constructor
  · intro h
    split at h
    · cases h
    · rename_i hs
      split at h
      · cases h
      · rename_i hsender
        split at h
        · cases h
        · rename_i hdest
          split at h
          · rename_i hm
            cases h
            rw [not_or, Decidable.not_not] at hsender
            have hmeant : p.dest = l.own ∨ p.dest.isEveryone = true :=
              Decidable.or_iff_not_imp_left.2 fun hd =>
                Decidable.not_not.1 fun he => hdest ⟨hd, he⟩
            exact ⟨hs, rfl, hsender.1, hsender.2, hmeant, hm⟩
          · cases h
  · rintro ⟨hs, rfl, hforeign, hknown, hmeant, hreads⟩
    dsimp only at hs hforeign hknown hmeant hreads
    rw [hs]
    dsimp only
    have hsender : ¬(sender = l.own ∨ sender ∉ l.roster) := fun h =>
      h.elim hforeign fun hn => hn hknown
    have hdest : ¬(p.dest ≠ l.own ∧ ¬p.dest.isEveryone = true) := fun h => hmeant.elim h.1 h.2
    rw [if_neg hsender, if_neg hdest, hreads]

end Link

/-! ## Hearing -/

/-- How long a step may wait for a packet, if it receives at all. -/
def Node.patience (n : Node) (now : Timestamp) : Option Duration :=
  (n.listensUntil? now).map fun limit => n.waitUntil limit now

/-- **A step listens exactly if it comes before the deadline of its state** and nothing that was put
aside is to be looked at first. -/
theorem Node.listensUntil?_eq_some_iff {n : Node} {now : Timestamp} {limit : Deadline} :
    n.listensUntil? now = some limit ↔
      limit ∈ n.awaited? ∧ limit.elapsed now = false ∧ n.hasWork = false := by
  unfold listensUntil?
  cases n.awaited? with
  | none => simp
  | some d =>
    rw [Option.ite_none_left_eq_some, not_or, Bool.not_eq_true, Bool.not_eq_true,
      Option.mem_some_iff, Option.some.injEq]
    constructor
    · rintro ⟨waits, rfl⟩
      exact ⟨rfl, waits⟩
    · rintro ⟨rfl, waits⟩
      exact ⟨waits, rfl⟩

/-- It waits no longer than that deadline is away, and no longer than the poll budget. -/
theorem Node.patience_eq_some_iff {n : Node} {now : Timestamp} {timeout : Duration} :
    n.patience now = some timeout ↔ ∃ d ∈ n.awaited?, d.elapsed now = false ∧ n.hasWork = false ∧
      timeout = (d.remaining now).shorter n.settings.timings.poll := by
  unfold patience
  rw [Option.map_eq_some_iff]
  refine exists_congr fun d => ?_
  rw [listensUntil?_eq_some_iff, and_assoc, and_assoc]
  exact and_congr_right fun _ => and_congr_right fun _ => and_congr_right fun _ => eq_comm

theorem Node.isSome_patience_iff {n : Node} {now : Timestamp} : (n.patience now).isSome = true ↔
    ∃ d ∈ n.awaited?, d.elapsed now = false ∧ n.hasWork = false := by
  rw [Option.isSome_iff_exists]
  constructor
  · rintro ⟨timeout, h⟩
    obtain ⟨d, awaited, early, idle, -⟩ := patience_eq_some_iff.1 h
    exact ⟨d, awaited, early, idle⟩
  · rintro ⟨d, awaited, early, idle⟩
    exact ⟨_, patience_eq_some_iff.2 ⟨d, awaited, early, idle, rfl⟩⟩

/-- A node receives nothing if it waits for nothing, if it comes too late, or if it has work. -/
theorem Node.patience_eq_none_iff {n : Node} {now : Timestamp} : n.patience now = none ↔
    ∀ d ∈ n.awaited?, d.elapsed now = false → n.hasWork = true := by
  rw [← Option.not_isSome_iff_eq_none, isSome_patience_iff]
  simp only [not_exists, not_and, Bool.not_eq_false]

namespace Station

variable {α ρ : Type}

/-- A station hears what it can wait for on its radio, as long as it has the patience. -/
theorem hear_eq [Radio ρ] (s : Station α) (radio : ρ) (now : Timestamp) :
    s.hear radio now = match s.node.patience now with
      | none => (none, radio, [])
      | some timeout => s.node.link.await radio timeout := by
  unfold hear Node.patience
  cases s.node.listensUntil? now <;> rfl

/-- A station without patience asks nothing of its radio. -/
theorem hear_of_patience_eq_none [Radio ρ] {s : Station α} {now : Timestamp}
    (h : s.node.patience now = none) (radio : ρ) : s.hear radio now = (none, radio, []) := by
  rw [hear_eq, h]

/-- **What a station hears has passed the filter of its link.** -/
theorem passes_of_hear [Radio ρ] {s : Station α} {radio : ρ} {now : Timestamp} {m : Inbound}
    (h : (s.hear radio now).1 = some m) : s.node.link.Passes m := by
  rw [hear_eq] at h
  split at h
  · cases h
  · unfold Link.await at h
    split at h
    · cases h
    · exact (Link.fst_read_eq_some_iff.1 h).2.2

/-! ## Stepping -/

variable [Application α]

/-- Hearing `heard`, the station reacts with `r`, and is `s'` once the radio has taken the frame of
`r` or not. -/
structure Steps (s : Station α) (clock : Readings) (heard : Option Inbound) (r : Reaction α)
    (taken : Bool) (s' : Station α) : Prop where
  reacts : s.node.react s.app clock heard = .ok r
  ends : ∃ events, r.finish taken clock.entered = .ok (s'.node, events)
  app : s'.app = r.app

/-- What a station is after a step, by the reaction that it made. -/
theorem Steps.node_eq {s s' : Station α} {clock : Readings} {heard : Option Inbound}
    {r : Reaction α} {taken : Bool} (h : s.Steps clock heard r taken s') :
    ∃ timers random evictions admissions, s'.node = { r.node with
      state := r.transition.next
      table := r.node.table.markAll r.transition.marks
      stats := { r.booked taken with evictions, admissions }
      timers, random } ∧ (r.transition.next = r.node.state → timers = r.node.timers) := by
  obtain ⟨events, hf⟩ := h.ends
  exact Reaction.finish_eq_ok hf

/-- Whatever the end of a step counts, it is not a token given up. -/
theorem Steps.tokensYielded_eq {s s' : Station α} {clock : Readings} {heard : Option Inbound}
    {r : Reaction α} {taken : Bool} (h : s.Steps clock heard r taken s') :
    s'.node.stats.tokensYielded = r.node.stats.tokensYielded := by
  obtain ⟨timers, random, e, a, hn, -⟩ := h.node_eq
  rw [hn]
  exact r.tokensYielded_booked taken

/-- **A step on any radio** is one message heard, one reaction and one frame sent. -/
theorem step_eq_ok [Radio ρ] {s s' : Station α} {radio radio' : ρ} {clock : Readings}
    {events : List Event} (h : s.step radio clock = .ok (s', radio', events)) :
    ∃ r, s.Steps clock (s.hear radio clock.start).1 r
        (emit s.node.link (s.hear radio clock.start).2.1 r.emission).1 s' ∧
      radio' = (emit s.node.link (s.hear radio clock.start).2.1 r.emission).2.1 := by
  rcases hh : s.hear radio clock.start with ⟨heard, radio₁, received⟩
  simp only [step, hh, bind, Except.bind] at h
  split at h
  · cases h
  · rename_i r hr
    rcases he : emit s.node.link radio₁ r.emission with ⟨taken, radio₂, sent⟩
    simp only [he] at h
    split at h
    · cases h
    · rename_i p hp
      obtain ⟨n', moved⟩ := p
      cases h
      exact ⟨r, by rw [he]; exact ⟨hr, ⟨moved, hp⟩, rfl⟩, by rw [he]⟩

/-- A step happens if its reaction and the end of it do. -/
theorem exists_step [Radio ρ] {s : Station α} {radio : ρ} {clock : Readings} {r : Reaction α}
    (hr : s.node.react s.app clock (s.hear radio clock.start).1 = .ok r)
    (hf : ∀ taken, ∃ p, r.finish taken clock.entered = .ok p) :
    ∃ p, s.step radio clock = .ok p := by
  rcases hh : s.hear radio clock.start with ⟨heard, radio₁, received⟩
  rw [hh] at hr
  rcases he : emit s.node.link radio₁ r.emission with ⟨taken, radio₂, sent⟩
  obtain ⟨⟨n', moved⟩, hp⟩ := hf taken
  simp only [step, hh, bind, Except.bind, hr, he, hp]
  exact ⟨_, rfl⟩

end Station

end RadioRing
