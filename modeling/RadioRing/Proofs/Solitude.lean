import RadioRing.Proofs.Runs

/-!
# Proofs/Solitude — who is in the ring of a lone node

A node is alone when it has founded a network or has nobody left to offer its token to.  Its table
then has nobody but itself — **unless it founded the network after it had left another one**, whose
members stay in the table, and until an outdated offer lets its sender in: such an offer is
acknowledged, and the node stays alone.  `eligible_alone_iff` says that nothing else does.
-/

namespace RadioRing

variable {α : Type}

namespace Moment

/-- The step founds a network while `a`, a member of a network that the node has left, still takes
turns in its table. -/
def Keeps (x : Moment α) (a : Address) : Prop :=
  x.before.node.state = .founding ∧ x.before.node.session ≠ none ∧
    x.before.node.table.isEligible a = true

/-- The step hears an outdated offer of `a` to the node, in its network. -/
def HearsOutdated (x : Moment α) (a : Address) : Prop :=
  ∃ m ∈ x.heard, x.before.node.Outdates m ∧ m.sender = a

end Moment

namespace Station

variable [Application α] {s s₀ : Station α} {run : List (Moment α)}

/-- **The table is about the roster**, and about all of it. -/
theorem Reachable.contains_iff (h : s.Reachable) {a : Address} :
    s.node.table.contains a = true ↔ a ∈ s.node.settings.roster := by
  refine h.invariant (P := fun s => s.node.table.contains a = true ↔ a ∈ s.node.settings.roster)
    (fun s hs => ?_) fun x hx _ ih => ?_
  · obtain ⟨settings, random, -, hn⟩ := hs.node_eq
    rw [hn]
    exact Membership.contains_ofRoster
  · rw [hx.table_after, hx.settings_after, Membership.contains_markAll]
    exact ih

/-- **Who has never been in a network has nobody in its table.** -/
theorem Reachable.outside (h : s.Reachable) : s.node.session.isSome = true ∨
    s.node.state.isSettled = false ∧ ∀ a, s.node.table.isEligible a = false := by
  refine h.invariant (P := fun s => s.node.session.isSome = true ∨
    s.node.state.isSettled = false ∧ ∀ a, s.node.table.isEligible a = false)
    (fun s hs => ?_) fun x hx _ ih => ?_
  · obtain ⟨settings, random, -, hn⟩ := hs.node_eq
    rw [hn]
    exact Or.inr ⟨rfl, Membership.isEligible_ofRoster _⟩
  · rw [hx.session_after, hx.state_after, hx.table_after]
    rcases ih with hsome | ⟨hstate, hnobody⟩
    · exact Or.inl (hx.acts.session_isSome hsome)
    · refine (hx.acts.of_unsettled hstate).imp id fun ⟨hnext, hmarks⟩ => ⟨hnext, ?_⟩
      rw [hmarks]
      exact hnobody

omit [Application α] in
/-- A node that has been switched on is not alone before it has become so. -/
theorem Booted.ne_alone (h : s.Booted) : s.node.state ≠ .alone := by
  obtain ⟨settings, random, -, hn⟩ := h.node_eq
  rw [hn]
  nofun

variable {x : Moment α} {a : Address}

/-- **A node that becomes alone has nobody but itself in its table**, unless it keeps the members of
the network that it has left. -/
theorem Reachable.eligible_of_becomes_alone (hs : x.before.Reachable) (hx : x.Happens)
    (hbefore : x.before.node.state ≠ .alone) (hafter : x.after.node.state = .alone)
    (ha : a ≠ x.after.node.own) : x.after.node.table.isEligible a = true ↔ x.Keeps a := by
  rw [hx.own_after] at ha
  rw [hx.table_after]
  rcases hx.acts.of_next_alone (hx.state_after ▸ hafter) with
    ⟨hstate, hmarks⟩ | ⟨hstate, hnobody, hmarks⟩ | ⟨hstate, -⟩
  · have hkeeps : x.before.node.table.isEligible a = true ↔ x.Keeps a := by
      refine ⟨fun he => ⟨hstate, fun hnone => ?_, he⟩, fun h => h.2.2⟩
      rcases hs.outside with hsome | ⟨-, hnobody⟩
      · rw [hnone] at hsome
        exact absurd hsome nofun
      · rw [hnobody a] at he
        exact absurd he nofun
    rw [hmarks]
    change (x.before.node.table.mark x.before.node.own true).isEligible a = true ↔ _
    rw [Membership.isEligible_mark, if_neg ha, hkeeps]
  · have hkeeps : ¬x.Keeps a := fun h => by
      rw [h.1] at hstate
      exact absurd hstate nofun
    rw [hmarks]
    refine ⟨fun he => ?_, fun h => absurd h hkeeps⟩
    obtain ⟨next, hnext⟩ := Membership.exists_successor he ha
    exact absurd (hnobody.symm.trans hnext) nofun
  · exact absurd hstate hbefore

/-- **A lone node lets in whoever makes it an outdated offer**, and nobody else. -/
theorem Reachable.eligible_of_stays_alone (hs : x.before.Reachable) (hx : x.Happens)
    (hbefore : x.before.node.state = .alone) (hafter : x.after.node.state = .alone) :
    x.after.node.table.isEligible a = true ↔
      x.before.node.table.isEligible a = true ∨ x.HearsOutdated a := by
  rw [hx.table_after]
  rcases hx.acts.of_next_alone (hx.state_after ▸ hafter) with
    ⟨hstate, -⟩ | ⟨hstate, -⟩ | ⟨-, hmarks, hsenders⟩
  · rw [hbefore] at hstate
    exact absurd hstate nofun
  · rw [hbefore] at hstate
    exact absurd hstate nofun
  · rw [Membership.isEligible_markAll hmarks, hsenders]
    refine or_congr_right ⟨And.right, fun h => ⟨?_, h⟩⟩
    obtain ⟨m, hm, -, rfl⟩ := h
    exact hs.contains_iff.2 (hx.passes hm).known

end Station

/-- **Who takes turns in the table of a lone node.**  Since it became alone it has stayed so, and
besides itself it has in its table the members of a network that it had left when it founded its
own, and everybody who has made it an outdated offer since then. -/
theorem eligible_alone_iff [Application α] {s₀ s : Station α} {run : List (Moment α)} (boot : s₀.Booted)
    (h : s₀.Run run s) (alone : s.node.state = .alone) :
    ∃ before x after, run = before ++ x :: after ∧ x.before.node.state ≠ .alone ∧
      x.after.node.state = .alone ∧ (∀ y ∈ after, y.before.node.state = .alone) ∧
      ∀ a, a ≠ s.node.own → (s.node.table.isEligible a = true ↔
        x.Keeps a ∨ ∃ y ∈ after, y.HearsOutdated a) := by
  induction h with
  | refl => exact absurd alone boot.ne_alone
  | @step run x h hx ih =>
    have reachable := h.reachable boot.reachable
    -- The node stays alone, and what it hears is added, or becomes so in this moment.
    by_cases hstate : x.before.node.state = .alone
    · obtain ⟨before, z, after, rfl, hbefore, hafter, hstays, heligible⟩ := ih hstate
      refine ⟨before, z, after ++ [x], by simp, hbefore, hafter,
        List.forall_mem_append.2 ⟨hstays, by simpa using hstate⟩, fun a ha => ?_⟩
      rw [reachable.eligible_of_stays_alone hx hstate alone,
        heligible a (hx.own_after ▸ ha), or_assoc]
      simp only [List.mem_append, List.mem_singleton, or_and_right, exists_or, exists_eq_left]
    · refine ⟨run, x, [], rfl, hstate, alone, List.forall_mem_nil _, fun a ha => ?_⟩
      rw [reachable.eligible_of_becomes_alone hx hstate alone ha]
      simp

/-! ## Two nodes -/

/-- Node 1 is admitted by node 2, is called away by a token of another network, and founds a network
of its own when nobody answers its requests. -/
def founder? : Option (Station Beacon × List (Moment Beacon) × Station Beacon) :=
  Station.played? ⟨1⟩ [
    (.zero, []),
    (.zero, [⟨some ⟨2⟩, ⟨1⟩, (Message.joinAck ⟨1⟩ ⟨7⟩ 5 false [⟨1⟩, ⟨2⟩]).encode⟩]),
    (.zero, [⟨some ⟨2⟩, .everyone, (Message.turn ⟨1⟩ ⟨8⟩ 6).encode⟩]),
    (.zero, []), (.ofMillis 3000, []), (.ofMillis 3000, []), (.ofMillis 6000, []),
    (.ofMillis 6000, []), (.ofMillis 9000, []), (.ofMillis 9000, []), (.ofMillis 12000, []),
    (.ofMillis 12000, [])]

theorem isSome_founder? : founder?.isSome = true := by decide +kernel

/-- Node 1 when it is switched on, what it does, and what it is after that. -/
def founder : Station Beacon × List (Moment Beacon) × Station Beacon :=
  founder?.get isSome_founder?

theorem run_founder : founder.1.Booted ∧ founder.1.Run founder.2.1 founder.2.2 :=
  Station.run_of_played? (p := founder) (Option.some_get isSome_founder?).symm

theorem founder_keeps : founder.2.2.node.state = .alone ∧
    founder.2.2.node.table.isEligible ⟨2⟩ = true ∧ ⟨2⟩ ≠ founder.2.2.node.own := by
  decide +kernel

/-- Node 1 is alone, and keeps node 2 in its table from the network that it has left. -/
theorem eligible_alone_of_founder : founder.2.2.node.state = .alone ∧
    founder.2.2.node.table.isEligible ⟨2⟩ = true ∧
    ∃ x ∈ founder.2.1, x.Keeps ⟨2⟩ ∨ x.HearsOutdated ⟨2⟩ := by
  obtain ⟨boot, hrun⟩ := run_founder
  obtain ⟨halone, heligible, hother⟩ := founder_keeps
  obtain ⟨before, x, after, hsplit, -, -, -, hiff⟩ := eligible_alone_iff boot hrun halone
  refine ⟨halone, heligible, ?_⟩
  rw [hsplit]
  rcases (hiff ⟨2⟩ hother).1 heligible with hkeeps | ⟨y, hy, hears⟩
  · exact ⟨x, by simp, Or.inl hkeeps⟩
  · exact ⟨y, by simp [hy], Or.inr hears⟩

/-- Node 1 has its turn, finds that node 2 is gone, and is alone when node 2 offers it a token that
is older than the one it had. -/
def forsaken? : Option (Station Beacon × List (Moment Beacon) × Station Beacon) :=
  Station.played? ⟨1⟩ [
    (.zero, []),
    (.zero, [⟨some ⟨2⟩, ⟨1⟩, (Message.joinAck ⟨1⟩ ⟨7⟩ 5 true [⟨1⟩, ⟨2⟩]).encode⟩]),
    (.zero, []), (.ofMillis 8000, []), (.ofMillis 8000, []), (.ofMillis 9500, []),
    (.ofMillis 11000, []), (.ofMillis 12500, []), (.ofMillis 14000, []), (.ofMillis 14000, []),
    (.ofMillis 14000, [⟨some ⟨2⟩, .everyone, (Message.turn ⟨1⟩ ⟨7⟩ 6).encode⟩])]

theorem isSome_forsaken? : forsaken?.isSome = true := by decide +kernel

/-- Node 1 when it is switched on, what it does, and what it is after that. -/
def forsaken : Station Beacon × List (Moment Beacon) × Station Beacon :=
  forsaken?.get isSome_forsaken?

theorem reachable_forsaken : forsaken.2.2.Reachable := by
  have h := Station.run_of_played? (p := forsaken) (Option.some_get isSome_forsaken?).symm
  exact h.2.reachable h.1.reachable

theorem forsaken_lets_in : forsaken.2.2.node.state = .alone ∧
    forsaken.2.2.node.table.isEligible ⟨2⟩ = true ∧ ⟨2⟩ ≠ forsaken.2.2.node.own := by
  decide +kernel

/-- **A node can be alone with others in its table.** -/
theorem not_only_own_eligible : ¬∀ s : Station Beacon, s.Reachable → s.node.state = .alone →
    ∀ a, a ≠ s.node.own → s.node.table.isEligible a = false := by
  intro hall
  obtain ⟨halone, heligible, hother⟩ := forsaken_lets_in
  have hnone := hall forsaken.2.2 reachable_forsaken halone ⟨2⟩ hother
  exact absurd (heligible.symm.trans hnone) nofun

end RadioRing
