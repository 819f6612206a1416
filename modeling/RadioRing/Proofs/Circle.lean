import RadioRing.Proofs.Network

/-!
# Proofs/Circle — a ring of nodes and its one token

A `Circle` is a ring of nodes with one session, each of which has all others in its table.  Within
it **an offer goes to the next node in ascending order** (`eq_node_succ`), so that a `Stage`, the
number of hand-offs there were, says where the token is and which round it has.  A message is
`Lawful` if it could have been said up to a stage, and a node `Fits` a stage if it could stand there
then; **both stay so when the others go on** (`Fits.advance`).
-/

namespace RadioRing

/-! ## The ring -/

/-- Nodes with accepted settings that share a session and have each other in their tables. -/
structure Circle where
  ring : List Address
  ascending : ring.Pairwise (· < ·)
  two : 2 ≤ ring.length
  session : Session
  named : session.word ≠ 0
  settings : Address → Settings
  own : ∀ x ∈ ring, (settings x).node = x
  accepted : ∀ x ∈ ring, (settings x).check = .ok (.ok ())
  table : Address → Membership
  /-- A table is about the roster of its node. -/
  roster : ∀ x ∈ ring, ∀ y, (table x).contains y = true → y ∈ (settings x).roster
  eligible : ∀ x ∈ ring, ∀ y ∈ ring, (table x).isEligible y = true
  /-- The place in the ring where the token starts. -/
  first : Nat
  /-- The round it starts with. -/
  base : UInt32

namespace Circle

variable (c : Circle)

theorem place_lt (k : Nat) : (c.first + k) % c.ring.length < c.ring.length :=
  Nat.mod_lt _ (Nat.lt_of_lt_of_le Nat.two_pos c.two)

/-- The node that the token comes to after `k` hand-offs: the `k`-th one after the first, in
ascending order and around the ring. -/
def node (k : Nat) : Address := c.ring.get ⟨(c.first + k) % c.ring.length, c.place_lt k⟩

/-- The round of the token after `k` hand-offs. -/
def round (k : Nat) : Nat := c.base.toNat + k

/-- Whom that node offers the token to. -/
def next (k : Nat) : Option Address := (c.table (c.node k)).successor (c.node k)

theorem node_mem (k : Nat) : c.node k ∈ c.ring := List.get_mem _ _

/-- In an ascending list, the place after another one is the nearest around the ring. -/
theorem gap_le_of_ascending {ring : List Address} (h : ring.Pairwise (· < ·))
    (i j k : Fin ring.length) (hij : i ≠ j) (hk : k.val = (j.val + 1) % ring.length) :
    (ring.get j).gap (ring.get k) ≤ (ring.get j).gap (ring.get i) := by
  have lt : ∀ i j : Fin ring.length, i.val < j.val →
      (ring.get i).toNat < (ring.get j).toNat := fun i j hlt =>
    Address.lt_iff.1 (List.pairwise_iff_getElem.1 h i j i.isLt j.isLt hlt)
  have le : ∀ i j : Fin ring.length, i.val ≤ j.val →
      (ring.get i).toNat ≤ (ring.get j).toNat := by
    intro i j hle
    rcases Nat.lt_or_eq_of_le hle with hlt | heq
    · exact Nat.le_of_lt (lt i j hlt)
    · exact Nat.le_of_eq (congrArg (fun i => (ring.get i).toNat) (Fin.ext heq))
  have hne : i.val ≠ j.val := fun he => hij (Fin.ext he)
  have hj := j.isLt
  have hjb := (ring.get j).toNat_lt
  have hib := (ring.get i).toNat_lt
  have hkb := (ring.get k).toNat_lt
  rcases Nat.lt_or_ge (j.val + 1) ring.length with hlast | hlast
  · rw [Nat.mod_eq_of_lt hlast] at hk
    have hup := lt j k (by omega)
    rcases Nat.lt_or_gt_of_ne hne with hlt | hgt
    · have := lt i j hlt
      simp only [Address.gap]
      omega
    · have := le k i (by omega)
      simp only [Address.gap]
      omega
  · -- The walk starts over, with the lowest address.
    have hend : j.val + 1 = ring.length := by omega
    rw [hend, Nat.mod_self] at hk
    have hilt := i.isLt
    have := lt i j (by omega)
    have := le k i (by omega)
    simp only [Address.gap]
    omega

/-- The node after another one is a different one. -/
theorem node_succ_ne (k : Nat) : c.node (k + 1) ≠ c.node k := by
  have htwo := c.two
  have hplace : (c.first + (k + 1)) % c.ring.length ≠ (c.first + k) % c.ring.length := by
    have hlt := c.place_lt k
    rw [← Nat.add_assoc, Nat.add_mod, Nat.mod_eq_of_lt htwo]
    rcases Nat.lt_or_ge ((c.first + k) % c.ring.length + 1) c.ring.length with h | h
    · rw [Nat.mod_eq_of_lt h]
      omega
    · have hend : (c.first + k) % c.ring.length + 1 = c.ring.length := by omega
      rw [hend, Nat.mod_self]
      omega
  intro he
  rcases Nat.lt_or_gt_of_ne hplace with h | h
  · have hlt : c.node (k + 1) < c.node k := List.pairwise_iff_getElem.1 c.ascending _ _ _ _ h
    exact Address.lt_irrefl _ (he ▸ hlt)
  · have hlt : c.node k < c.node (k + 1) := List.pairwise_iff_getElem.1 c.ascending _ _ _ _ h
    exact Address.lt_irrefl _ (he ▸ hlt)

/-- **Within the ring, an offer goes to the next node.** -/
theorem eq_node_succ {k : Nat} {t : Address} (h : c.next k = some t) (ht : t ∈ c.ring) :
    t = c.node (k + 1) := by
  obtain ⟨-, hne, hle⟩ := Membership.successor_eq_some_iff.1 h
  obtain ⟨i, rfl⟩ := List.get_of_mem ht
  have hgap : (c.node k).gap (c.node (k + 1)) ≤ (c.node k).gap (c.ring.get i) := by
    refine gap_le_of_ascending c.ascending i _ _ (fun he => hne (congrArg _ he)) ?_
    rw [Nat.mod_add_mod]
    rfl
  have hleast := hle _ (c.eligible _ (c.node_mem k) _ (c.node_mem (k + 1))) (c.node_succ_ne k)
  exact Address.gap_inj (Nat.le_antisymm hleast hgap)

/-- Every node of the ring has somebody to offer the token to. -/
theorem exists_next (k : Nat) : ∃ t, c.next k = some t :=
  Membership.exists_successor (c.eligible _ (c.node_mem k) _ (c.node_mem (k + 1)))
    (c.node_succ_ne k)

end Circle

/-! ## How far the token has come -/

/-- Where a token stands after `passed` hand-offs. -/
inductive Stage
  /-- Its node has taken it, and has not started its turn. -/
  | ready (passed : Nat)
  /-- Its node has its turn. -/
  | held (passed : Nat)
  /-- Its node offers it. -/
  | offered (passed : Nat)
deriving DecidableEq

namespace Stage

/-- How many hand-offs there were. -/
def passed : Stage → Nat
  | ready k | held k | offered k => k

/-- How many rounds there are beyond the first one. -/
def issued : Stage → Nat
  | ready k | held k => k
  | offered k => k + 1

/-- How many turns were started. -/
def started : Stage → Nat
  | ready k => k
  | held k | offered k => k + 1

/-- No token is passed on before it is issued. -/
theorem passed_le_issued (g : Stage) : g.passed ≤ g.issued := by
  cases g <;> simp only [passed, issued] <;> omega

/-- All rounds but one that is offered have been taken. -/
theorem succ_le_passed {g : Stage} {k : Nat} (hk : k < g.issued) (h : g ≠ .offered k) :
    k + 1 ≤ g.passed := by
  cases g with
  | ready | held => exact hk
  | offered j =>
    have hne : k ≠ j := fun he => h (congrArg _ he.symm)
    simp only [issued, passed] at hk ⊢
    omega

end Stage

namespace Circle

variable (c : Circle)

/-! ## What may be said -/

/-- A frame repeats no offer that is still to be taken. -/
def Answers (g : Stage) (echo : Bytes) : Prop :=
  ∀ target session round, echo = (Message.turn target session round).encode →
    round.toNat ≤ c.round g.passed

/-- What `sender` can have said up to a stage: payloads of the tokens it had, offers of the ones
after those, and acknowledgements of offers only if they were taken. -/
def Lawful (g : Stage) (sender : Address) : Message → Prop
  | .data round _ | .retry round _ =>
    ∃ k ≤ g.passed, sender = c.node k ∧ round.toNat = c.round k
  | .turn target session round => session = c.session ∧
    ∃ k < g.issued, sender = c.node k ∧ round.toNat = c.round (k + 1) ∧ c.next k = some target
  | .ack echo => c.Answers g echo
  | .joinRequest _ | .joinAck .. => False

/-- What the node `x` can hear up to a stage. -/
structure Hears (g : Stage) (x : Address) (m : Inbound) : Prop where
  foreign : m.sender ≠ x
  member : m.sender ∈ c.ring
  raw : m.raw = m.message.encode
  lawful : c.Lawful g m.sender m.message

/-! ## Where a node may stand -/

/-- The states that the node `x` can be in at a stage, and the offers that go with them. -/
def Place (g : Stage) (x : Address) (n : Node) : Prop :=
  match n.state with
  | .listening => x ≠ c.node g.passed
  | .acknowledging _ echo => x ≠ c.node g.passed ∧ c.Answers g echo
  | .accepting _ echo => (∃ k, g = .ready k ∧ x = c.node k) ∧ c.Answers g echo
  | .speaking => ∃ k, g = .ready k ∧ x = c.node k
  | .awaitingEcho | .repeating | .offering => (∃ k, g = .held k ∧ x = c.node k) ∧ n.offer = none
  | .awaitingTaker taker => ∃ k round, x = c.node k ∧ c.next k = some taker ∧
    round.toNat = c.round (k + 1) ∧ n.offer = some (.turn taker c.session round) ∧
      (g = .offered k ∨ k < g.passed ∧ x ≠ c.node g.passed)
  | _ => False

/-- The rounds that the node `x` can know of at a stage. -/
structure Knows (g : Stage) (x : Address) (r : Rounds) : Prop where
  held : r.held.toNat ≤ c.round g.passed
  seen : r.seen.toNat ≤ c.round g.issued
  /-- The node still holds every token that it had, or a newer one. -/
  had : ∀ k ≤ g.passed, c.node k = x → c.round k ≤ r.held.toNat

/-- What is true of the node `x` at a stage. -/
structure Fits (g : Stage) (x : Address) (n : Node) : Prop where
  settings : n.settings = c.settings x
  table : n.table = c.table x
  session : n.session = some c.session
  rounds : c.Knows g x n.rounds
  deferred : ∀ m ∈ n.deferred, c.Hears g x m
  place : c.Place g x n

/-- What a reaction of the node `x` leads to: a node that fits the stage, with its table as it was,
and nothing unlawful on the air. -/
structure Leads {α : Type} (g : Stage) (x : Address) (r : Reaction α) : Prop where
  fits : c.Fits g x { r.node with state := r.transition.next }
  marks : r.transition.marks = []
  emission : ∀ e ∈ r.emission, e.message.WellFormed ∧ c.Lawful g x e.message

/-- How the stage may change when the node `x` goes from one state to another. -/
inductive Advances (x : Address) : State → State → Stage → Stage → Prop
  | stays {s s' : State} (g : Stage) (hs : s ≠ .speaking) (hs' : s'.hasTaken = false) :
    Advances x s s' g g
  | speaks {s' : State} (k : Nat) (hx : x = c.node k) (hs' : s'.hasTaken = false) :
    Advances x .speaking s' (.ready k) (.held k)
  | offers {s s' : State} (k : Nat) (hx : x = c.node k) (hs : s ≠ .speaking)
    (hs' : s'.hasTaken = false) : Advances x s s' (.held k) (.offered k)
  | takes {s s' : State} (k : Nat) (hx : x = c.node (k + 1)) (hk : c.next k = some x)
    (hs : s ≠ .speaking) (hs' : s'.hasTaken = true) :
    Advances x s s' (.offered k) (.ready (k + 1))

/-! ## Going on to a later stage -/

section Later

variable {c} {g g' : Stage} {x y : Address} {s s' : State} {n : Node} {known : Rounds}
  {echo : Bytes} {m : Inbound}

theorem round_le {j k : Nat} (h : j ≤ k) : c.round j ≤ c.round k := Nat.add_le_add_left h _

theorem le_of_round_le {j k : Nat} (h : c.round j ≤ c.round k) : j ≤ k :=
  Nat.le_of_add_le_add_left h

/-- An echo that repeats no open offer repeats none later. -/
theorem Answers.mono (hp : g.passed ≤ g'.passed) (h : c.Answers g echo) : c.Answers g' echo :=
  fun t s r he => Nat.le_trans (h t s r he) (round_le hp)

/-- **What is lawful at a stage is lawful later.** -/
theorem Lawful.mono (hp : g.passed ≤ g'.passed) (hi : g.issued ≤ g'.issued) {message : Message}
    (h : c.Lawful g x message) : c.Lawful g' x message := by
  cases message with
  | data round body | retry round body =>
    obtain ⟨k, hk, h⟩ := h
    exact ⟨k, Nat.le_trans hk hp, h⟩
  | ack echo => exact Answers.mono hp h
  | turn target session round =>
    obtain ⟨hs, k, hk, h⟩ := h
    exact ⟨hs, k, Nat.lt_of_lt_of_le hk hi, h⟩
  | joinRequest | joinAck => exact h

/-- What can be heard at a stage can be heard later. -/
theorem Hears.mono (hp : g.passed ≤ g'.passed) (hi : g.issued ≤ g'.issued) (h : c.Hears g x m) :
    c.Hears g' x m :=
  ⟨h.foreign, h.member, h.raw, h.lawful.mono hp hi⟩

/-- The token never goes back. -/
theorem Advances.passed_le (h : c.Advances x s s' g g') : g.passed ≤ g'.passed := by
  cases h <;> simp only [Stage.passed] <;> omega

theorem Advances.issued_le (h : c.Advances x s s' g g') : g.issued ≤ g'.issued := by
  cases h <;> simp only [Stage.issued] <;> omega

/-- Only `x` can come to have the token. -/
theorem Advances.ne_node (ha : c.Advances x s s' g g') (hyx : y ≠ x) (h : y ≠ c.node g.passed) :
    y ≠ c.node g'.passed := by
  cases ha with
  | takes k hx => exact fun he => hyx (he.trans hx.symm)
  | _ => exact h

/-- While it is another node's turn, the stage stays as it is. -/
theorem Advances.eq_of_turn (ha : c.Advances x s s' g g') (hyx : y ≠ x) {k : Nat}
    (hy : y = c.node k) (hg : g = .ready k ∨ g = .held k) : g = g' := by
  cases ha with
  | stays => rfl
  | speaks j hx | offers j hx =>
    have hj : j = k := by rcases hg with he | he <;> injection he
    exact absurd (hy.trans (hj ▸ hx.symm)) hyx
  | takes => rcases hg with he | he <;> exact absurd he nofun

/-- A node knows no more than it may when another one goes on. -/
theorem Knows.advance (h : c.Knows g y known) (ha : c.Advances x s s' g g') (hyx : y ≠ x) :
    c.Knows g' y known := by
  refine ⟨Nat.le_trans h.held (round_le ha.passed_le),
    Nat.le_trans h.seen (round_le ha.issued_le), fun k hk hy => ?_⟩
  rcases Nat.lt_or_ge g.passed k with hlt | hle
  · cases ha with
    | takes j hx =>
      have hkj : k = j + 1 := Nat.le_antisymm hk hlt
      exact absurd (hy.symm.trans (hkj ▸ hx.symm)) hyx
    | _ => exact absurd hk (Nat.not_le_of_lt hlt)
  · exact h.had k hle hy

/-- **A node stays where it may stand when another one goes on**: only the node at its turn can move
the token, and only the taker takes it. -/
theorem Place.advance (h : c.Place g y n) (ha : c.Advances x s s' g g') (hyx : y ≠ x) :
    c.Place g' y n := by
  unfold Place at h ⊢
  cases hst : n.state <;> simp only [hst] at h ⊢
  case listening => exact ha.ne_node hyx h
  case acknowledging => exact ⟨ha.ne_node hyx h.1, h.2.mono ha.passed_le⟩
  case accepting =>
    obtain ⟨⟨k, hg, hy⟩, hecho⟩ := h
    exact ⟨⟨k, ha.eq_of_turn hyx hy (Or.inl hg) ▸ hg, hy⟩, hecho.mono ha.passed_le⟩
  case speaking =>
    obtain ⟨k, hg, hy⟩ := h
    exact ⟨k, ha.eq_of_turn hyx hy (Or.inl hg) ▸ hg, hy⟩
  case awaitingTaker =>
    obtain ⟨k, round, hy, hnext, hround, hoffer, hg⟩ := h
    refine ⟨k, round, hy, hnext, hround, hoffer, ?_⟩
    rcases hg with rfl | ⟨hlt, hother⟩
    · cases ha with
      | stays => exact Or.inl rfl
      | takes j hx => exact Or.inr ⟨Nat.lt_succ_self k, fun he => hyx (he.trans hx.symm)⟩
    · exact Or.inr ⟨Nat.lt_of_lt_of_le hlt ha.passed_le, ha.ne_node hyx hother⟩
  all_goals
    obtain ⟨⟨k, hg, hy⟩, hoffer⟩ := h
    exact ⟨⟨k, ha.eq_of_turn hyx hy (Or.inr hg) ▸ hg, hy⟩, hoffer⟩

/-- **The others fit the next stage as well**, without doing anything. -/
theorem Fits.advance (h : c.Fits g y n) (ha : c.Advances x s s' g g') (hyx : y ≠ x) :
    c.Fits g' y n :=
  ⟨h.settings, h.table, h.session, h.rounds.advance ha hyx,
    fun m hm => (h.deferred m hm).mono ha.passed_le ha.issued_le, h.place.advance ha hyx⟩

end Later

end Circle

end RadioRing
