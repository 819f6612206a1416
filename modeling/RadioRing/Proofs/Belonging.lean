import RadioRing.Proofs.Mastership
import RadioRing.Proofs.Solitude

/-!
# Proofs/Belonging — a node takes turns in its own table exactly if it has a network

A node gets its network in one of two ways, by an answer to its request or by founding one, and
**both put the node into its own table**.  Nothing puts it out again: whoever is evicted is a peer
that was presumed dead or that never took an offer.  The network, and the rounds of its tokens, are
given up only on the same two ways and by a node that asks to be admitted again (`belonging`).
-/

namespace RadioRing

/-- The states on the way into a network. -/
theorem State.isSettled_eq_false_iff {s : State} : s.isSettled = false ↔
    s = .requesting ∨ s = .awaitingAdmission ∨ s = .founding := by
  cases s <;> simp [isSettled]

namespace Rounds

/-- Nothing that was held or heard of in `r` is forgotten in `r'`. -/
def Within (r r' : Rounds) : Prop := r.held ≤ r'.held ∧ r.seen ≤ r'.seen

theorem within_refl (r : Rounds) : r.Within r := ⟨UInt32.le_refl _, UInt32.le_refl _⟩

theorem within_observe (r : Rounds) (round : UInt32) : r.Within (r.observe round) := by
  refine ⟨UInt32.le_refl _, UInt32.le_iff_toNat_le.2 ?_⟩
  rw [toNat_seen_observe]
  exact Nat.le_max_left _ _

theorem within_accept (r : Rounds) (round : UInt32) : r.Within (r.accept round) := by
  refine ⟨UInt32.le_iff_toNat_le.2 ?_, UInt32.le_iff_toNat_le.2 ?_⟩
  · rw [toNat_held_accept]
    exact Nat.le_max_left _ _
  · rw [toNat_seen_accept]
    omega

end Rounds

namespace Node

variable {n n' : Node} {clock : Readings} {heard : Option Inbound} {e : Option Emission}
  {t : Transition}

/-- A node never takes itself for dead. -/
theorem ne_own_of_presumedDead? {dead : Address} (h : n.presumedDead? = some dead) :
    dead ≠ n.own := by
  have search (h : n.table.eligible.find? (· ≠ n.own) = some dead) : dead ≠ n.own := by
    simpa using List.find?_some h
  unfold presumedDead? at h
  split at h
  · split at h
    · rename_i hother
      exact Option.some.inj h ▸ hother
    · exact search h
  · exact search h

/-- **No act puts the node itself out of its table**, if it waits for another node to take its
offer. -/
theorem Acts.own_marks (h : n.Acts clock heard n' e t)
    (other : ∀ taker, n.state = .awaitingTaker taker → taker ≠ n.own) :
    ∀ x ∈ t.marks, x.node = n.own → x.eligible = true := by
  -- Only three acts put somebody out, each of them one peer.
  have peer {a : Address} (ha : a ≠ n.own) (x : Mark) (hx : x ∈ [(⟨a, false⟩ : Mark)])
      (hown : x.node = n.own) : x.eligible = true := by
    obtain rfl := List.mem_singleton.1 hx
    exact absurd hown ha
  intro x hx hown
  cases h with
  | joins =>
    simp only [Transition.marks_withMarks, Transition.marks_mark, Transition.marks_goTo,
      List.mem_append, List.mem_map, List.mem_singleton, List.not_mem_nil, false_or] at hx
    rcases hx with (rfl | rfl) | ⟨member, -, rfl⟩ <;> rfl
  | founds => rw [List.mem_singleton.1 hx]
  | admits =>
    simp only [Transition.marks_mark, Transition.marks_goTo, List.mem_append, List.mem_singleton,
      List.not_mem_nil, false_or] at hx
    rcases hx with rfl | rfl <;> rfl
  | claims _ _ presumed | passesOver _ _ presumed =>
    exact peer (ne_own_of_presumedDead? presumed) x hx hown
  | stopsOffering state => exact peer (other _ state) x hx hown
  | hearsListening _ _ _ makes =>
    cases makes with
    | calledAway | foreignOffer => exact absurd hx List.not_mem_nil
    | learns =>
      rcases List.mem_append.1 hx with hx | hx
      · exact eligible_of_mem_readmission hx
      · rw [List.mem_singleton.1 hx]
    | _ => exact eligible_of_mem_readmission hx
  | hearsAlone _ _ _ makes =>
    cases makes with
    | takes | declines => rw [List.mem_singleton.1 hx]
    | _ => exact absurd hx List.not_mem_nil
  | hearsHolding _ _ _ _ makes => cases makes <;> exact eligible_of_mem_readmission hx
  | hearsGiving _ _ _ makes => cases makes <;> exact eligible_of_mem_readmission hx
  | _ => exact absurd hx List.not_mem_nil

/-- **A node keeps its network and forgets no round**, or it leaves to be admitted again, is
admitted, or founds a network; the last two put it into its own table. -/
theorem Acts.session_rounds (h : n.Acts clock heard n' e t) :
    (n'.session = n.session ∧ n.rounds.Within n'.rounds) ∨
    ((n.state = .listening ∨ n.state = .alone ∨ n.state = .offering ∧ n.session = none) ∧
      n'.session = n.session ∧ t.next = .requesting) ∨
    (n.state = .awaitingAdmission ∧ (∃ m session round handsOver members, heard = some m ∧
      m.message = .joinAck n.own session round handsOver members ∧ n'.session = some session) ∧
      ⟨n.own, true⟩ ∈ t.marks) ∨
    (n.state = .founding ∧ ⟨n.own, true⟩ ∈ t.marks) := by
  have keeps : n.session = n.session ∧ n.rounds.Within n.rounds := ⟨rfl, n.rounds.within_refl⟩
  cases h with
  | joins state hears message =>
    exact Or.inr (Or.inr (Or.inl ⟨state, ⟨_, _, _, _, _, hears, message, rfl⟩, by simp⟩))
  | founds state => exact Or.inr (Or.inr (Or.inr ⟨state, by simp⟩))
  | rescans state => exact Or.inr (Or.inl ⟨Or.inr (Or.inl state), rfl, rfl⟩)
  | strays state outside => exact Or.inr (Or.inl ⟨Or.inr (Or.inr ⟨state, outside⟩), rfl, rfl⟩)
  | admits =>
    split
    · exact Or.inl keeps
    · exact Or.inl ⟨rfl, n.rounds.within_observe _⟩
  | claims | claimsUnopposed => exact Or.inl ⟨rfl, n.rounds.within_accept _⟩
  | offers => exact Or.inl ⟨rfl, n.rounds.within_observe _⟩
  | hearsListening state _ _ makes =>
    cases makes with
    | calledAway => exact Or.inr (Or.inl ⟨Or.inl state, rfl, rfl⟩)
    | offerToOther | learns => exact Or.inl ⟨rfl, n.rounds.within_observe _⟩
    | takes => exact Or.inl ⟨rfl, n.rounds.within_accept _⟩
    | _ => exact Or.inl keeps
  | hearsAlone state _ _ makes =>
    cases makes with
    | rejoins => exact Or.inr (Or.inl ⟨Or.inr (Or.inl state), rfl, rfl⟩)
    | takes => exact Or.inl ⟨rfl, n.rounds.within_accept _⟩
    | _ => exact Or.inl keeps
  | hearsHolding _ _ _ _ makes =>
    cases makes with
    | offered => exact Or.inl ⟨rfl, n.rounds.within_accept _⟩
    | _ => exact Or.inl keeps
  | hearsGiving _ _ _ makes => cases makes <;> exact Or.inl keeps
  | _ => exact Or.inl keeps

end Node

namespace Moment

variable {α : Type}

/-- The node leaves its network and asks to be admitted again. -/
structure Rejoins (x : Moment α) : Prop where
  state : x.before.node.state = .listening ∨ x.before.node.state = .alone
  next : x.after.node.state = .requesting

/-- The node waits to be admitted, and hears an answer that names it. -/
structure Joins (x : Moment α) : Prop where
  state : x.before.node.state = .awaitingAdmission
  answer : ∃ m session round handsOver members, x.heard = some m ∧
    m.message = .joinAck x.before.node.own session round handsOver members ∧
    x.after.node.session = some session

/-- The node founds a network. -/
def Founds (x : Moment α) : Prop := x.before.node.state = .founding

variable [Application α] {x : Moment α}

theorem Happens.own_marks (hs : x.before.Reachable) (hx : x.Happens) :
    ∀ y ∈ x.reaction.transition.marks, y.node = x.before.node.own → y.eligible = true :=
  hx.acts.own_marks fun taker hstate => (hs.isEligible_taker taker hstate).2

/-- **A node that takes turns in its own table goes on doing so**, and one that the step puts there
does so afterwards. -/
theorem Happens.isEligible_own_after (hs : x.before.Reachable) (hx : x.Happens) :
    x.after.node.table.isEligible x.after.node.own = true ↔
      x.before.node.table.isEligible x.before.node.own = true ∨
        ∃ y ∈ x.reaction.transition.marks, y.node = x.before.node.own := by
  rw [hx.own_after, hx.table_after, Membership.isEligible_markAll_of_letIn (hx.own_marks hs),
    hs.contains_iff, and_iff_right hs.own_mem]

/-- **A step keeps the network and forgets no round**, or it is one of the three that may not. -/
theorem Happens.session_rounds (hs : x.before.Reachable) (hx : x.Happens) :
    (x.after.node.session = x.before.node.session ∧
      x.before.node.rounds.Within x.after.node.rounds) ∨
    (x.after.node.session = x.before.node.session ∧ x.Rejoins) ∨
    (x.Joins ∨ x.Founds) ∧ ⟨x.before.node.own, true⟩ ∈ x.reaction.transition.marks := by
  rw [hx.session_after, hx.rounds_after]
  rcases hx.acts.session_rounds with hkeeps | ⟨hstate, hsame, hnext⟩ |
    ⟨hstate, ⟨m, session, round, handsOver, members, hears, message, hsession⟩, hmark⟩ |
    ⟨hstate, hmark⟩
  · exact Or.inl hkeeps
  · refine Or.inr (Or.inl ⟨hsame, hstate.imp_right fun h => h.elim id fun ⟨hoffering, hnone⟩ => ?_,
      hx.state_after.trans hnext⟩)
    rcases hs.outside with hsome | ⟨hunsettled, -⟩
    · rw [hnone] at hsome
      exact absurd hsome nofun
    · rw [hoffering] at hunsettled
      exact absurd hunsettled nofun
  · exact Or.inr (Or.inr ⟨Or.inl ⟨hstate, m, session, round, handsOver, members, hears, message,
      hx.session_after.trans hsession⟩, hmark⟩)
  · exact Or.inr (Or.inr ⟨Or.inr hstate, hmark⟩)

end Moment

namespace Station

variable {α : Type} [Application α] {s : Station α}

/-- **Who has a network takes turns in its own table.** -/
theorem Reachable.isEligible_own (h : s.Reachable) : s.node.session.isSome = true →
    s.node.table.isEligible s.node.own = true := by
  refine h.invariant (P := fun s => s.node.session.isSome = true →
    s.node.table.isEligible s.node.own = true) (fun s hs hsome => ?_) fun x hx hs ih hsome => ?_
  · obtain ⟨settings, random, -, hn⟩ := hs.node_eq
    rw [hn] at hsome
    exact absurd hsome nofun
  · rw [hx.isEligible_own_after hs]
    rcases hx.session_rounds hs with ⟨hsame, -⟩ | ⟨hsame, -⟩ | ⟨-, hmark⟩
    · exact Or.inl (ih (hsame ▸ hsome))
    · exact Or.inl (ih (hsame ▸ hsome))
    · exact Or.inr ⟨_, hmark, rfl⟩

/-- **A node that takes turns in its own table does so for ever.** -/
theorem Run.isEligible_own {run : List (Moment α)} {t : Station α} (h : s.Run run t)
    (hs : s.Reachable) (hown : s.node.table.isEligible s.node.own = true) :
    t.node.table.isEligible t.node.own = true := by
  induction h with
  | refl => exact hown
  | step h hx ih => exact (hx.isEligible_own_after (h.reachable hs)).2 (Or.inl ih)

end Station

/-- **The network of a node, its own place in it, and the rounds that it knows of**, at any time of
its life.  It has a network exactly if it takes turns in its own table; without one it is on its way
into its first network, so it neither offers a token nor answers a request; it has heard of every
round that it held; and once it takes turns in its own table it does so for ever.  Whatever a step
does, it does not put the node out of its own table, not even for a moment; it changes the network
only if the node is admitted or founds one; and it forgets a round only then, or if the node asks to
be admitted again. -/
theorem belonging {α : Type} [Application α] {s : Station α} (h : s.Reachable) :
    (s.node.session.isSome = true ↔ s.node.table.isEligible s.node.own = true) ∧
    (s.node.session = none → s.node.state = .requesting ∨ s.node.state = .awaitingAdmission ∨
      s.node.state = .founding) ∧
    (s.node.state = .offering ∨ (∃ joiner, s.node.state = .admitting joiner) →
      s.node.session.isSome = true) ∧
    s.node.rounds.held ≤ s.node.rounds.seen ∧
    (s.node.table.isEligible s.node.own = true →
      ∀ run t, s.Run run t → t.node.table.isEligible t.node.own = true) ∧
    ∀ x : Moment α, x.Happens → x.before = s →
      (∀ y ∈ x.reaction.transition.marks, y.node = s.node.own → y.eligible = true) ∧
      (x.after.node.session ≠ s.node.session → x.Joins ∨ x.Founds) ∧
      (x.after.node.rounds.held < s.node.rounds.held ∨
          x.after.node.rounds.seen < s.node.rounds.seen →
        x.Rejoins ∨ x.Joins ∨ x.Founds) := by
  have outside (hnone : s.node.session = none) :
      s.node.state.isSettled = false ∧ ∀ a, s.node.table.isEligible a = false := by
    refine h.outside.resolve_left fun hsome => ?_
    rw [hnone] at hsome
    exact absurd hsome nofun
  refine ⟨⟨h.isEligible_own, fun hown => ?_⟩, fun hnone => ?_, fun hstate => ?_,
    UInt32.le_iff_toNat_le.2 (Station.sound_of_reachable h).rounds,
    fun hown run t hrun => hrun.isEligible_own h hown, ?_⟩
  · refine Option.isSome_iff_ne_none.2 fun hnone => ?_
    rw [(outside hnone).2] at hown
    exact absurd hown nofun
  · exact State.isSettled_eq_false_iff.1 (outside hnone).1
  · refine Option.isSome_iff_ne_none.2 fun hnone => ?_
    have hunsettled := State.isSettled_eq_false_iff.1 (outside hnone).1
    rcases hstate with hs | ⟨joiner, hs⟩ <;> simp [hs] at hunsettled
  · rintro x hx rfl
    refine ⟨hx.own_marks h, fun hother => ?_, fun hforgets => ?_⟩
    · rcases hx.session_rounds h with ⟨hsame, -⟩ | ⟨hsame, -⟩ | ⟨hgets, -⟩
      · exact absurd hsame hother
      · exact absurd hsame hother
      · exact hgets
    · rcases hx.session_rounds h with ⟨-, hheld, hseen⟩ | ⟨-, hrejoins⟩ | ⟨hgets, -⟩
      · rcases hforgets with hlt | hlt
        · exact absurd hlt (UInt32.not_lt.2 hheld)
        · exact absurd hlt (UInt32.not_lt.2 hseen)
      · exact Or.inl hrejoins
      · exact Or.inr hgets

/-- What node 1 does when a token of another network names it: it has been admitted by node 2, has
heard of round 5, and leaves. -/
def callAway? : Option (Moment Beacon) :=
  (Station.played? ⟨1⟩ [
    (.zero, []),
    (.zero, [⟨some ⟨2⟩, ⟨1⟩, (Message.joinAck ⟨1⟩ ⟨7⟩ 5 false [⟨1⟩, ⟨2⟩]).encode⟩]),
    (.zero, [⟨some ⟨2⟩, .everyone, (Message.turn ⟨1⟩ ⟨8⟩ 6).encode⟩])]).bind fun p => p.2.1[2]?

theorem isSome_callAway? : callAway?.isSome = true := by decide

def callAway : Moment Beacon := callAway?.get isSome_callAway?

theorem happens_callAway : callAway.before.Reachable ∧ callAway.Happens :=
  Station.happens_of_played? (Option.some_get isSome_callAway?).symm

/-- Node 1 forgets the round and keeps its place in its own table, until it is admitted again. -/
theorem belonging_of_callAway : callAway.before.node.rounds.seen = 5 ∧
    callAway.after.node.rounds.seen = 0 ∧
    callAway.after.node.table.isEligible callAway.after.node.own = true ∧
    (callAway.Rejoins ∨ callAway.Joins ∨ callAway.Founds) := by
  obtain ⟨hown, -, -, -, hstays, hstep⟩ := belonging happens_callAway.1
  obtain ⟨-, -, hforgets⟩ := hstep _ happens_callAway.2 rfl
  exact ⟨by decide, by decide,
    hstays (hown.1 (by decide)) _ _ (Station.Run.cons happens_callAway.2 .refl),
    hforgets (Or.inr (by decide))⟩

end RadioRing
