import RadioRing.Node.Step
import RadioRing.Proofs.RingOrder

/-!
# Proofs/Outcome — what the end of a step changes

A rule says with a `Reaction` what becomes of its node; what is left to do at the end of the step is
the same for all rules.  `finish_eq_ok` says once and for all what that is: **the new state, the
marks in the table, the counters, and the timers of a state that is entered** — nothing else.  It
cannot fail on the way into any state but `alone` (`exists_finish`).
-/

namespace RadioRing

/-! ## Several marks -/

/-- The table after some changes, in order. -/
def Membership.markAll (m : Membership) (marks : List Mark) : Membership :=
  marks.foldl (fun m x => m.mark x.node x.eligible) m

namespace Membership

/-- **Marks change flags and never who is in the table.** -/
theorem keys_markAll (marks : List Mark) : ∀ m : Membership, (m.markAll marks).keys = m.keys := by
  induction marks with
  | nil => exact fun _ => rfl
  | cons x rest ih => exact fun m => (ih _).trans (keys_mark m _ _)

theorem contains_mark (m : Membership) (a : Address) (e : Bool) (x : Address) :
    (m.mark a e).contains x = m.contains x := by
  rw [Bool.eq_iff_iff, AddressMap.contains_iff_mem_keys, keys_mark,
    AddressMap.contains_iff_mem_keys]

theorem contains_markAll (marks : List Mark) (m : Membership) (x : Address) :
    (m.markAll marks).contains x = m.contains x := by
  rw [Bool.eq_iff_iff, AddressMap.contains_iff_mem_keys, keys_markAll,
    AddressMap.contains_iff_mem_keys]

/-- **If no mark puts the node `a` out**, it takes turns afterwards if it did before, or if the table
is about it and one of the marks lets it in. -/
theorem isEligible_markAll_of_letIn {marks : List Mark} {a : Address}
    (h : ∀ x ∈ marks, x.node = a → x.eligible = true) :
    ∀ m : Membership, (m.markAll marks).isEligible a = true ↔
      m.isEligible a = true ∨ m.contains a = true ∧ ∃ x ∈ marks, x.node = a := by
  induction marks with
  | nil => simp [markAll]
  | cons x rest ih =>
    intro m
    obtain ⟨hx, hrest⟩ := List.forall_mem_cons.1 h
    change ((m.mark x.node x.eligible).markAll rest).isEligible a = true ↔ _
    rw [ih hrest, contains_mark, isEligible_mark]
    simp only [List.mem_cons, or_and_right, exists_or, exists_eq_left]
    by_cases ha : a = x.node
    · subst ha
      simp only [hx rfl, Bool.and_true, if_true, true_or, and_true]
      exact ⟨fun h => Or.inr (h.elim id And.left),
        fun h => Or.inl (h.elim contains_of_isEligible id)⟩
    · simp only [if_neg ha, Ne.symm ha, false_or]

/-- **Marks that let peers in** put nobody out, and let in whom the table is about. -/
theorem isEligible_markAll {marks : List Mark} (h : ∀ x ∈ marks, x.eligible = true) {a : Address} :
    ∀ m : Membership, (m.markAll marks).isEligible a = true ↔
      m.isEligible a = true ∨ m.contains a = true ∧ ∃ x ∈ marks, x.node = a :=
  isEligible_markAll_of_letIn fun x hx _ => h x hx

/-- A mark is no news if its node has that flag already, or is not in the table. -/
theorem isNews_eq_false_iff {m : Membership} {a : Address} {e : Bool} :
    m.isNews a e = false ↔ (m.contains a = true → m.isEligible a = e) := by
  simp [isNews]

/-- **A mark that is no news leaves the table as it is.** -/
theorem mark_eq_self {m : Membership} {a : Address} {e : Bool} (h : m.isNews a e = false) :
    m.mark a e = m := by
  rw [isNews_eq_false_iff] at h
  refine AddressMap.ext ((List.map_congr_left fun x hx => ?_).trans (List.map_id _))
  have hget := AddressMap.get?_eq_some_iff.2 hx
  refine Prod.ext rfl ?_
  dsimp only [id]
  split
  · rename_i hxa
    subst hxa
    have he := h (AddressMap.contains_iff.2 ⟨_, hget⟩)
    rw [isEligible, hget] at he
    exact he.symm
  · rfl

/-- Marks that are no news leave the table as it is. -/
theorem markAll_eq_self {m : Membership} {marks : List Mark}
    (h : ∀ x ∈ marks, m.isNews x.node x.eligible = false) : m.markAll marks = m := by
  induction marks with
  | nil => rfl
  | cons x rest ih =>
    obtain ⟨hx, hrest⟩ := List.forall_mem_cons.1 h
    change (m.mark x.node x.eligible).markAll rest = m
    rw [mark_eq_self hx]
    exact ih hrest

/-- Marks that let peers in are no news when they are made again. -/
theorem isNews_markAll {m : Membership} {marks : List Mark} (h : ∀ x ∈ marks, x.eligible = true)
    {x : Mark} (hx : x ∈ marks) : (m.markAll marks).isNews x.node x.eligible = false := by
  rw [isNews_eq_false_iff, contains_markAll, h x hx]
  exact fun hin => (isEligible_markAll h m).2 (Or.inr ⟨hin, x, hx, rfl⟩)

end Membership

namespace Node

/-! ## Making changes to the table -/

/-- A mark changes the table and may be counted; the rest of the node stays. -/
theorem fst_applyMark (n : Node) (m : Mark) : ∃ evictions admissions,
    (n.applyMark m).1 = { n with
      table := n.table.mark m.node m.eligible
      stats := { n.stats with evictions, admissions } } := by
  unfold applyMark
  split
  · exact ⟨n.stats.evictions, n.stats.admissions, rfl⟩
  · split
    · exact ⟨n.stats.evictions, _, rfl⟩
    · exact ⟨_, n.stats.admissions, rfl⟩

/-- Marks change the table and the counters of peers, and that is all. -/
theorem fst_applyMarks (marks : List Mark) : ∀ n : Node, ∃ evictions admissions,
    (n.applyMarks marks).1 = { n with
      table := n.table.markAll marks
      stats := { n.stats with evictions, admissions } } := by
  induction marks with
  | nil => exact fun n => ⟨n.stats.evictions, n.stats.admissions, rfl⟩
  | cons x rest ih =>
    intro n
    obtain ⟨e, a, hx⟩ := n.fst_applyMark x
    obtain ⟨e', a', hrest⟩ := ih (n.applyMark x).1
    refine ⟨e', a', ?_⟩
    change ((n.applyMark x).1.applyMarks rest).1 = _
    rw [hrest, hx]
    rfl

/-- **Marks that are no news do nothing and report nothing.** -/
theorem applyMarks_eq_self {n : Node} {marks : List Mark}
    (h : ∀ x ∈ marks, n.table.isNews x.node x.eligible = false) : n.applyMarks marks = (n, []) := by
  induction marks with
  | nil => rfl
  | cons x rest ih =>
    obtain ⟨hx, hrest⟩ := List.forall_mem_cons.1 h
    have hmark : n.applyMark x = (n, []) := by
      simp [applyMark, hx, Membership.mark_eq_self hx]
    simp [applyMarks, hmark, ih hrest]

/-! ## Entering a state -/

/-- A random delay costs random numbers and nothing else. -/
theorem snd_jitter (n : Node) (most : Duration) :
    ∃ random, (n.jitter most).2 = { n with random } := by
  rw [jitter]
  split
  · exact ⟨n.random, rfl⟩
  · exact ⟨_, rfl⟩

/-- **Entering a state arms timers and draws random numbers, and that is all.** -/
theorem enter_eq_ok {n n' : Node} {now : Timestamp} (h : n.enter now = .ok n') :
    ∃ timers random, n' = { n with timers, random } := by
  unfold enter at h
  split at h
  · cases h
    exact ⟨_, n.random, rfl⟩
  · obtain ⟨random, hr⟩ := snd_jitter n n.settings.timings.joinResend
    simp only [hr] at h
    split at h
    · cases h
      exact ⟨_, random, rfl⟩
    · cases h
  · obtain ⟨random, hr⟩ := snd_jitter n n.settings.timings.answerJitter
    simp only [hr] at h
    cases h
    exact ⟨_, random, rfl⟩
  · split at h
    · obtain ⟨random, hr⟩ := snd_jitter n n.settings.timings.answerJitter
      simp only [hr] at h
      cases h
      exact ⟨_, random, rfl⟩
    · cases h
      exact ⟨_, n.random, rfl⟩
  · cases h
    exact ⟨n.timers, n.random, rfl⟩

/-- Only the wait of a lone node can be too long for a duration. -/
theorem exists_enter {n : Node} (h : n.state ≠ .alone) (now : Timestamp) :
    ∃ n', n.enter now = .ok n' := by
  unfold enter
  split
  · exact ⟨_, rfl⟩
  · rename_i ha
    exact absurd ha h
  · exact ⟨_, rfl⟩
  · split <;> exact ⟨_, rfl⟩
  · exact ⟨_, rfl⟩

/-! ## Making a transition -/

/-- What a transition may touch: the state, the table with its counters, the timers and the random
numbers. -/
theorem move_eq_ok {n n' : Node} {t : Transition} {now : Timestamp} {events : List Event}
    (h : n.move t now = .ok (n', events)) : ∃ timers random evictions admissions, n' = { n with
      state := t.next
      table := n.table.markAll t.marks
      stats := { n.stats with evictions, admissions }
      timers, random } ∧ (t.next = n.state → timers = n.timers) := by
  obtain ⟨e, a, hm⟩ := n.fst_applyMarks t.marks
  unfold move at h
  generalize n.applyMarks t.marks = p at hm h
  obtain ⟨marked, remarks⟩ := p
  subst hm
  dsimp only at h
  split at h
  · rename_i hstate
    cases h
    exact ⟨n.timers, n.random, e, a, by rw [hstate], fun _ => rfl⟩
  · rename_i hstate
    split at h
    · rename_i entered hen
      cases h
      obtain ⟨timers, random, rfl⟩ := enter_eq_ok hen
      exact ⟨timers, random, e, a, rfl, fun hs => absurd hs hstate⟩
    · cases h

/-- **A transition that does not make its node alone cannot fail.** -/
theorem exists_move {n : Node} {t : Transition} (h : t.next ≠ .alone ∨ t.next = n.state)
    (now : Timestamp) : ∃ p, n.move t now = .ok p := by
  obtain ⟨e, a, hm⟩ := n.fst_applyMarks t.marks
  unfold move
  generalize n.applyMarks t.marks = p at hm
  obtain ⟨marked, remarks⟩ := p
  subst hm
  dsimp only
  split
  · exact ⟨_, rfl⟩
  · rename_i hstate
    obtain ⟨entered, hen⟩ := exists_enter (n := { n with
      table := n.table.markAll t.marks
      stats := { n.stats with evictions := e, admissions := a }
      state := t.next }) (h.resolve_right hstate) now
    rw [hen]
    exact ⟨_, rfl⟩

/-- Marks that are no news move no counter. -/
theorem stats_of_move {n n' : Node} {t : Transition} {now : Timestamp} {events : List Event}
    (h : n.move t now = .ok (n', events))
    (old : ∀ x ∈ t.marks, n.table.isNews x.node x.eligible = false) : n'.stats = n.stats := by
  unfold move at h
  rw [applyMarks_eq_self old] at h
  dsimp only at h
  split at h
  · rw [← (Prod.mk.inj (Except.ok.inj h)).1]
  · split at h
    · rename_i entered hen
      obtain ⟨timers, random, rfl⟩ := enter_eq_ok hen
      rw [← (Prod.mk.inj (Except.ok.inj h)).1]
    · exact absurd h nofun

end Node

namespace Reaction

variable {α : Type} {r : Reaction α} {taken : Bool} {now : Timestamp} {n' : Node}
  {events : List Event}

/-- The counters when the radio has or has not taken the frame. -/
def booked (r : Reaction α) (taken : Bool) : Stats :=
  if taken then r.node.stats.credit r.credit else r.node.stats

/-- **What a step changes at its end**, whatever the rule was. -/
theorem finish_eq_ok (h : r.finish taken now = .ok (n', events)) :
    ∃ timers random evictions admissions, n' = { r.node with
      state := r.transition.next
      table := r.node.table.markAll r.transition.marks
      stats := { r.booked taken with evictions, admissions }
      timers, random } ∧ (r.transition.next = r.node.state → timers = r.node.timers) :=
  Node.move_eq_ok (n := { r.node with stats := r.booked taken }) h

/-- Without news, a step counts what its rule counts and the frame that was taken. -/
theorem stats_of_finish (h : r.finish taken now = .ok (n', events))
    (old : ∀ x ∈ r.transition.marks, r.node.table.isNews x.node x.eligible = false) :
    n'.stats = r.booked taken :=
  Node.stats_of_move (n := { r.node with stats := r.booked taken }) h old

/-- A step that does not make its node alone ends well. -/
theorem exists_finish (h : r.transition.next ≠ .alone ∨ r.transition.next = r.node.state)
    (taken : Bool) (now : Timestamp) : ∃ p, r.finish taken now = .ok p :=
  Node.exists_move (n := { r.node with stats := r.booked taken }) h now

/-- **Whether the radio takes a frame** moves only the counters of frames. -/
theorem booked_eq (r : Reaction α) (taken : Bool) : ∃ acksSent retriesSent joinsAnswered,
    r.booked taken = { r.node.stats with acksSent, retriesSent, joinsAnswered } := by
  unfold booked
  split
  · cases r.credit <;> exact ⟨_, _, _, rfl⟩
  · exact ⟨_, _, _, rfl⟩

/-- A frame that is taken counts as an acknowledgement or a repetition, never as a token given
up. -/
@[simp] theorem tokensYielded_booked (r : Reaction α) (taken : Bool) :
    (r.booked taken).tokensYielded = r.node.stats.tokensYielded := by
  obtain ⟨_, _, _, h⟩ := r.booked_eq taken
  rw [h]

@[simp] theorem watchdogFires_booked (r : Reaction α) (taken : Bool) :
    (r.booked taken).watchdogFires = r.node.stats.watchdogFires := by
  obtain ⟨_, _, _, h⟩ := r.booked_eq taken
  rw [h]

@[simp] theorem turnsHandedOff_booked (r : Reaction α) (taken : Bool) :
    (r.booked taken).turnsHandedOff = r.node.stats.turnsHandedOff := by
  obtain ⟨_, _, _, h⟩ := r.booked_eq taken
  rw [h]

@[simp] theorem payloadsEchoed_booked (r : Reaction α) (taken : Bool) :
    (r.booked taken).payloadsEchoed = r.node.stats.payloadsEchoed := by
  obtain ⟨_, _, _, h⟩ := r.booked_eq taken
  rw [h]

@[simp] theorem admissions_booked (r : Reaction α) (taken : Bool) :
    (r.booked taken).admissions = r.node.stats.admissions := by
  obtain ⟨_, _, _, h⟩ := r.booked_eq taken
  rw [h]

end Reaction

end RadioRing
