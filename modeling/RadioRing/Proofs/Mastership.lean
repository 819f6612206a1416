import RadioRing.Proofs.Runs

/-!
# Proofs/Mastership — who speaks is the master, and who waits has made an offer

A node is master from its payload to the end of its hand-off, **and nobody else ever sends a payload
or an offer** (`floor_discipline`).  While it waits for somebody to take the token, its offer is
made to a member of the ring other than itself, in the latest round that it knows of: an offer is
made to the successor, and whatever is heard while it waits can only let others in.
-/

namespace RadioRing

variable {α : Type} [Application α]

/-- What a node that waits for `taker` has offered. -/
structure Node.Offers (n : Node) (taker : Address) : Prop where
  /-- The offer is made in the node's network, for the latest round that it knows of. -/
  offer : ∃ session, n.session = some session ∧
    n.offer = some (.turn taker session n.rounds.seen)
  eligible : n.table.isEligible taker = true
  known : taker ∈ n.settings.roster
  other : taker ≠ n.own
  /-- The round is above the one that the node holds, unless it is the last one of all. -/
  newer : n.rounds.held < n.rounds.seen ∨ n.rounds.seen = 4294967295

theorem Rounds.Minted.newer {r : Rounds} (h : r.Minted) : r.held < r.seen ∨ r.seen = 4294967295 :=
  h.imp UInt32.lt_iff_toNat_lt.2 fun hlast => UInt32.toNat_inj.1 hlast

/-- A node is master from its payload to the end of its hand-off. -/
theorem State.isMaster_iff {s : State} : s.isMaster = true ↔
    s = .awaitingEcho ∨ s = .repeating ∨ s = .offering ∨ ∃ taker, s = .awaitingTaker taker := by
  cases s <;> simp [isMaster]

namespace Station

/-- **Whom an offer waits for takes turns**, and is not the node itself. -/
theorem Reachable.isEligible_taker {s : Station α} (h : s.Reachable) : ∀ taker,
    s.node.state = .awaitingTaker taker →
      s.node.table.isEligible taker = true ∧ taker ≠ s.node.own := by
  refine h.invariant (P := fun s => ∀ taker, s.node.state = .awaitingTaker taker →
    s.node.table.isEligible taker = true ∧ taker ≠ s.node.own)
    (fun s hs taker hstate => ?_) fun x hx _ ih taker hstate => ?_
  · obtain ⟨settings, random, -, hn⟩ := hs.node_eq
    rw [hn] at hstate
    exact absurd hstate nofun
  · obtain ⟨hfrom, hmarks⟩ := hx.acts.of_next_awaitingTaker (hx.state_after ▸ hstate)
    have before : x.before.node.table.isEligible taker = true ∧ taker ≠ x.before.node.own := by
      rcases hfrom with hnext | hwaits
      · obtain ⟨heligible, hother, -⟩ := Membership.successor_eq_some_iff.1 hnext
        exact ⟨heligible, hother⟩
      · exact ih taker hwaits
    rw [hx.table_after, hx.own_after]
    exact ⟨(Membership.isEligible_markAll hmarks _).2 (Or.inl before.1), before.2⟩

/-- **Whoever waits for a taker has made it an offer** that fits what it knows. -/
theorem Reachable.offers {s : Station α} (h : s.Reachable) {taker : Address}
    (hs : s.node.state = .awaitingTaker taker) : s.node.Offers taker := by
  have hfits := (sound_of_reachable h).offer
  rw [hs] at hfits
  obtain ⟨hminted, hknown, hoffer⟩ := hfits
  obtain ⟨heligible, hother⟩ := h.isEligible_taker taker hs
  exact ⟨hoffer, heligible, hknown, hother, hminted.newer⟩

/-- Nobody but a master has an offer that waits. -/
theorem Reachable.of_offer {s : Station α} (h : s.Reachable) (ho : s.node.offer ≠ none) :
    s.node.state = .offering ∨ ∃ taker, s.node.state = .awaitingTaker taker := by
  have hfits := (sound_of_reachable h).offer
  cases hs : s.node.state with
  | offering => exact Or.inl rfl
  | awaitingTaker taker => exact Or.inr ⟨taker, rfl⟩
  | _ =>
    rw [hs] at hfits
    exact absurd hfits ho

end Station

/-- **The discipline of the floor**, of a station at any time of its life: it is master exactly in
the four states from its payload to the end of its hand-off, it has an offer only in the last two
of them, and a step that sends a payload or an offer ends with the station being master. -/
theorem floor_discipline {s : Station α} (h : s.Reachable) :
    (s.node.master = true ↔ s.node.state = .awaitingEcho ∨ s.node.state = .repeating ∨
      s.node.state = .offering ∨ ∃ taker, s.node.state = .awaitingTaker taker) ∧
    (s.node.offer ≠ none →
      s.node.state = .offering ∨ ∃ taker, s.node.state = .awaitingTaker taker) ∧
    (∀ taker, s.node.state = .awaitingTaker taker → s.node.Offers taker) ∧
    ∀ x : Moment α, x.Happens → x.before = s → ∀ m, x.Says m →
      m.tag = .data ∨ m.tag = .retry ∨ m.tag = .turn → x.after.node.master = true := by
  refine ⟨?_, h.of_offer, fun taker => h.offers, ?_⟩
  · rw [(Station.sound_of_reachable h).master]
    exact State.isMaster_iff
  · rintro x hx rfl m ⟨e, he, rfl⟩ hm
    rw [(Station.sound_of_reachable (h.moment hx)).master, hx.state_after]
    exact hx.acts.isMaster_of_emission he hm

/-- What node 1 does when its offer of a token to node 2 has waited for a while: it makes the offer
again. -/
def secondOffer? : Option (Moment Beacon) :=
  (Station.giver? ⟨1⟩ ⟨2⟩ 5 [⟨1⟩, ⟨2⟩]).bind fun s =>
    s.moment? ({} : ScriptedRadio) (.still (.ofMillis 9500))

theorem isSome_secondOffer? : secondOffer?.isSome = true := by decide

def secondOffer : Moment Beacon := secondOffer?.get isSome_secondOffer?

theorem happens_secondOffer : secondOffer.before.Reachable ∧ secondOffer.Happens := by
  obtain ⟨s, hs, hx⟩ := Option.bind_eq_some_iff.1 (Option.some_get isSome_secondOffer?).symm
  obtain ⟨happens, rfl⟩ := Station.happens_of_moment? hx
  exact ⟨Station.reachable_of_giver? hs, happens⟩

/-- Node 1 keeps to the discipline while it makes its offer again. -/
theorem floor_discipline_of_giver : secondOffer.before.node.Offers ⟨2⟩ ∧
    secondOffer.Says (.turn ⟨2⟩ ⟨7⟩ 7) ∧ secondOffer.after.node.master = true := by
  have hsays : secondOffer.Says (.turn ⟨2⟩ ⟨7⟩ 7) := by
    unfold Moment.Says
    decide
  obtain ⟨-, -, hoffers, hmaster⟩ := floor_discipline happens_secondOffer.1
  exact ⟨hoffers ⟨2⟩ (by decide), hsays,
    hmaster _ happens_secondOffer.2 rfl _ hsays (Or.inr (Or.inr rfl))⟩

end RadioRing
