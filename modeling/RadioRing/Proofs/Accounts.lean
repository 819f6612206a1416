import RadioRing.Proofs.Solitude

/-!
# Proofs/Accounts — no turn and no peer is lost count of

Two balances hold at any time of a station's life.  **A turn that was taken** was handed off, was
given up for a better token, ended with nobody left to hand it to, or is still going on
(`Run.turnsTaken_eq`).  **A peer that was let in** was put out again, or takes turns now
(`Reachable.admissions_eq`).  Each comes from one fact about an act or a mark: whatever moves one
side moves the other side as much.
-/

namespace RadioRing

/-- A list that is ascending, like another one, and has one address more is longer by one. -/
theorem Address.length_eq_succ (a : Address) {xs ys : List Address} (hx : xs.Pairwise (· < ·))
    (hy : ys.Pairwise (· < ·)) (ha : a ∉ xs) (h : ∀ b, b ∈ ys ↔ b = a ∨ b ∈ xs) :
    ys.length = xs.length + 1 := by
  have perm : ys.Perm (a :: xs) := by
    refine (List.perm_ext_iff_of_nodup (hy.imp ne_of_lt) ?_).2 fun b => by
      rw [h, List.mem_cons]
    exact List.nodup_cons.2 ⟨ha, hx.imp ne_of_lt⟩
  exact perm.length_eq

namespace Membership

/-! ## Peers -/

variable {m : Membership} {own a b : Address}

/-- Everybody who takes turns, but the node `own` itself. -/
def peers (m : Membership) (own : Address) : List Address := m.eligible.filter (· ≠ own)

theorem mem_peers : b ∈ m.peers own ↔ m.isEligible b = true ∧ b ≠ own := by
  rw [peers, List.mem_filter, mem_eligible, decide_eq_true_iff]

theorem pairwise_peers (m : Membership) (own : Address) : (m.peers own).Pairwise (· < ·) :=
  m.pairwise_eligible.filter _

theorem isNews_eq_true_iff {e : Bool} :
    m.isNews a e = true ↔ m.contains a = true ∧ m.isEligible a = !e := by
  rw [isNews, Bool.and_eq_true, decide_eq_true_iff]
  cases m.isEligible a <;> cases e <;> simp

/-- **A peer that is let in is one peer more.** -/
theorem length_peers_mark_true (news : m.isNews a true = true) (ha : a ≠ own) :
    ((m.mark a true).peers own).length = (m.peers own).length + 1 := by
  obtain ⟨known, out⟩ := isNews_eq_true_iff.1 news
  refine Address.length_eq_succ a (m.pairwise_peers own) (pairwise_peers _ own) ?_ fun b => ?_
  · rw [mem_peers, out]
    exact fun h => absurd h.1 nofun
  · rw [mem_peers, mem_peers, isEligible_mark]
    by_cases hb : b = a
    · simp [hb, known, ha]
    · simp [hb]

/-- **A peer that is put out is one peer less.** -/
theorem length_peers_mark_false (news : m.isNews a false = true) (ha : a ≠ own) :
    (m.peers own).length = ((m.mark a false).peers own).length + 1 := by
  obtain ⟨-, takesTurns⟩ := isNews_eq_true_iff.1 news
  refine Address.length_eq_succ a (pairwise_peers _ own) (m.pairwise_peers own) ?_ fun b => ?_
  · rw [mem_peers, isEligible_mark, if_pos rfl, Bool.and_false]
    exact fun h => absurd h.1 nofun
  · rw [mem_peers, mem_peers, isEligible_mark]
    by_cases hb : b = a
    · simp [hb, takesTurns, ha]
    · simp [hb]

/-- The flag of the node itself makes no difference to its peers. -/
theorem peers_mark_own (m : Membership) (own : Address) (e : Bool) :
    (m.mark own e).peers own = m.peers own := by
  refine Address.eq_of_pairwise_lt (pairwise_peers _ own) (pairwise_peers _ own) fun b => ?_
  rw [mem_peers, mem_peers, isEligible_mark]
  by_cases hb : b = own <;> simp [hb]

end Membership

namespace Node

variable {n n' : Node} {clock : Readings} {heard : Option Inbound} {e : Option Emission}
  {t : Transition}

/-- Every peer that was let in was put out again, or takes turns. -/
def PeersBalance (n : Node) : Prop :=
  n.stats.admissions = n.stats.evictions + (n.table.peers n.own).length

/-- **A mark keeps the balance**: it counts exactly if it changes the flag of a peer. -/
theorem PeersBalance.applyMark (h : n.PeersBalance) (x : Mark) : (n.applyMark x).1.PeersBalance := by
  obtain ⟨a, eligible⟩ := x
  unfold PeersBalance at h ⊢
  unfold Node.applyMark
  dsimp only
  split
  · rename_i uncounted
    have same : (n.table.mark a eligible).peers n.own = n.table.peers n.own := by
      rcases uncounted with old | rfl
      · rw [Membership.mark_eq_self (Bool.eq_false_iff.2 old)]
      · exact Membership.peers_mark_own _ _ _
    exact h.trans (by rw [← same]; rfl)
  · rename_i counted
    rw [not_or, Decidable.not_not] at counted
    obtain ⟨news, peer⟩ := counted
    cases eligible with
    | true =>
      have more := Membership.length_peers_mark_true news peer
      change n.stats.admissions + 1 =
        n.stats.evictions + ((n.table.mark a true).peers n.own).length
      omega
    | false =>
      have less := Membership.length_peers_mark_false news peer
      change n.stats.admissions =
        n.stats.evictions + 1 + ((n.table.mark a false).peers n.own).length
      omega

theorem PeersBalance.applyMarks (marks : List Mark) :
    ∀ {n : Node}, n.PeersBalance → (n.applyMarks marks).1.PeersBalance := by
  induction marks with
  | nil => exact fun h => h
  | cons x rest ih => exact fun h => ih (h.applyMark x)

/-- A transition keeps the account of the peers balanced. -/
theorem PeersBalance.of_move {t : Transition} {now : Timestamp} {events : List Event}
    (h : n.PeersBalance) (moves : n.move t now = .ok (n', events)) : n'.PeersBalance := by
  have marked := h.applyMarks t.marks
  unfold move at moves
  dsimp only at moves
  split at moves
  · exact (Prod.mk.inj (Except.ok.inj moves)).1 ▸ marked
  · split at moves
    · rename_i entered enters
      obtain ⟨timers, random, rfl⟩ := enter_eq_ok enters
      exact (Prod.mk.inj (Except.ok.inj moves)).1 ▸ marked
    · exact absurd moves nofun

/-- No rule counts peers: that is left to the marks of its transition. -/
theorem Acts.peers_counted (h : n.Acts clock heard n' e t) :
    n'.stats.admissions = n.stats.admissions ∧ n'.stats.evictions = n.stats.evictions := by
  cases h with
  | admits => split <;> exact ⟨rfl, rfl⟩
  | hearsAlone _ _ _ makes | hearsListening _ _ _ makes | hearsHolding _ _ _ _ makes
  | hearsGiving _ _ _ makes => cases makes <;> exact ⟨rfl, rfl⟩
  | _ => exact ⟨rfl, rfl⟩

/-! ## Turns -/

/-- The turns that a node knows the end of, and the one that is going on. -/
def turnsKnown (n : Node) : Nat :=
  n.stats.turnsHandedOff + n.stats.tokensYielded + n.master.toNat

/-- The turn ends where nobody is left to take the next one. -/
def EndsAlone (n : Node) (next : State) : Prop := n.state = .offering ∧ next = .alone

instance (n : Node) (next : State) : Decidable (n.EndsAlone next) :=
  inferInstanceAs (Decidable (_ ∧ _))

theorem not_endsAlone {s : State} (state : n.state = s) (hs : s ≠ .offering) (next : State) :
    ¬n.EndsAlone next :=
  fun h => absurd (state.symm.trans h.1) hs

/-- Whoever was not master and is not master afterwards has parted with nothing. -/
theorem turnsKnown_of_apart (before : n.master = false) (after : n'.master = false)
    (stats : n'.stats = n.stats) : n'.turnsKnown = n.turnsKnown := by
  rw [turnsKnown, turnsKnown, stats, before, after]

/-- **An act that takes a turn makes its node master, and a master parts with its turn in one way
only**: it is handed off, given up, or ends where nobody is left. -/
theorem Acts.turns_balance (h : n.Acts clock heard n' e t) (master : n.master = n.state.isMaster)
    (member : n.state = .offering → n.session ≠ none) :
    n'.stats.turnsTaken + n.turnsKnown = n.stats.turnsTaken + n'.turnsKnown +
      if n.EndsAlone t.next then 1 else 0 := by
  have flag {s : State} (state : n.state = s) : n.master = s.isMaster := state ▸ master
  have keeps (goesOn : ¬n.EndsAlone t.next) (taken : n'.stats.turnsTaken = n.stats.turnsTaken)
      (known : n'.turnsKnown = n.turnsKnown) :
      n'.stats.turnsTaken + n.turnsKnown = n.stats.turnsTaken + n'.turnsKnown +
        if n.EndsAlone t.next then 1 else 0 := by
    rw [taken, known, if_neg goesOn, Nat.add_zero]
  have parts {s : State} (state : n.state = s) (hs : s.isMaster = true) (other : s ≠ .offering)
      (parted : n'.master = false) (taken : n'.stats.turnsTaken = n.stats.turnsTaken)
      (counted : n'.stats.turnsHandedOff + n'.stats.tokensYielded =
        n.stats.turnsHandedOff + n.stats.tokensYielded + 1) :
      n'.stats.turnsTaken + n.turnsKnown = n.stats.turnsTaken + n'.turnsKnown +
        if n.EndsAlone t.next then 1 else 0 := by
    rw [if_neg (not_endsAlone state other _), turnsKnown, turnsKnown, taken, counted, parted,
      flag state, hs]
    rfl
  cases h with
  | asks state | asksAgain state | stopsAsking state | forgets state | claimsUnopposed state
  | claims state | passesOver state | acknowledges state | accepts state | turnsToRepeat state
  | repeats state | offersAgain state | stopsOffering state =>
    exact keeps (not_endsAlone state nofun _) rfl rfl
  | joins state | founds state | rescans state =>
    exact keeps (not_endsAlone state nofun _) rfl (turnsKnown_of_apart (flag state) rfl rfl)
  | waitsToReply state | idles state =>
    refine keeps (fun ends => ?_) rfl rfl
    rw [Transition.next_goTo] at ends
    exact absurd (ends.1.symm.trans ends.2) nofun
  | admits state =>
    refine keeps (not_endsAlone state nofun _) ?_ ?_
    · split <;> rfl
    · split
      · rfl
      · exact turnsKnown_of_apart (flag state) rfl rfl
  | speaks state =>
    rw [if_neg (not_endsAlone state nofun _), turnsKnown, flag state]
    exact Nat.add_right_comm _ _ _
  | strays state outside => exact absurd outside (member state)
  | findsNobody state =>
    rw [if_pos ⟨state, rfl⟩, turnsKnown, flag state]
    rfl
  | offers state => exact keeps (fun ends => absurd ends.2 nofun) rfl rfl
  | endsTurn state =>
    have goesOn (next : State) : ¬n.EndsAlone next :=
      state.elim (not_endsAlone · nofun next) (not_endsAlone · nofun next)
    exact keeps (goesOn _) rfl rfl
  | hearsListening state _ _ makes =>
    cases makes with
    | calledAway =>
      exact keeps (not_endsAlone state nofun _) rfl (turnsKnown_of_apart (flag state) rfl rfl)
    | _ => exact keeps (not_endsAlone state nofun _) rfl rfl
  | hearsAlone state _ _ makes =>
    cases makes with
    | rejoins =>
      exact keeps (not_endsAlone state nofun _) rfl (turnsKnown_of_apart (flag state) rfl rfl)
    | _ => exact keeps (not_endsAlone state nofun _) rfl rfl
  | hearsHolding state _ _ _ makes =>
    cases makes with
    | yields => exact parts state rfl nofun rfl rfl rfl
    | _ => exact keeps (not_endsAlone state nofun _) rfl rfl
  | hearsGiving state _ _ makes =>
    cases makes with
    | handsOff => exact parts state rfl nofun rfl rfl (Nat.add_right_comm _ _ _)
    | drops => exact parts state rfl nofun rfl rfl rfl
    | _ => exact keeps (not_endsAlone state nofun _) rfl rfl

end Node

namespace Moment

variable {α : Type} [Application α] {x : Moment α}

omit [Application α] in
/-- The step ends a turn where nobody is left to take the next one. -/
def EndsAlone (x : Moment α) : Prop := x.before.node.EndsAlone x.after.node.state

instance (x : Moment α) : Decidable x.EndsAlone := inferInstanceAs (Decidable (Node.EndsAlone _ _))

/-- **A step keeps the peers in balance.** -/
theorem Happens.peersBalance (h : x.Happens) (balance : x.before.node.PeersBalance) :
    x.after.node.PeersBalance := by
  obtain ⟨events, ends⟩ := h.steps.ends
  obtain ⟨admissions, evictions⟩ := h.acts.peers_counted
  obtain ⟨acks, retries, joins, booked⟩ := x.reaction.booked_eq x.taken
  refine Node.PeersBalance.of_move
    (n := { x.reaction.node with stats := x.reaction.booked x.taken }) ?_ ends
  change (x.reaction.booked x.taken).admissions = (x.reaction.booked x.taken).evictions +
    (x.reaction.node.table.peers x.reaction.node.settings.node).length
  rw [booked, h.acts.settings_eq, h.acts.table_eq]
  dsimp only
  rw [admissions, evictions]
  exact balance

/-- **A step keeps the turns in balance.** -/
theorem Happens.turnsBalance (h : x.Happens) (hs : x.before.Reachable) :
    x.after.node.stats.turnsTaken + x.before.node.turnsKnown =
      x.before.node.stats.turnsTaken + x.after.node.turnsKnown + if x.EndsAlone then 1 else 0 := by
  have member (state : x.before.node.state = .offering) : x.before.node.session ≠ none := by
    rcases hs.outside with inside | ⟨unsettled, -⟩
    · exact Option.isSome_iff_ne_none.1 inside
    · rw [state] at unsettled
      exact absurd unsettled nofun
  obtain ⟨timers, random, e, a, after⟩ := h.node_after
  obtain ⟨acks, retries, joins, booked⟩ := x.reaction.booked_eq x.taken
  rw [booked] at after
  have balance := h.acts.turns_balance (Station.sound_of_reachable hs).master member
  rw [← h.state_after] at balance
  have taken : x.after.node.stats.turnsTaken = x.reaction.node.stats.turnsTaken := by rw [after]
  have known : x.after.node.turnsKnown = x.reaction.node.turnsKnown := by rw [after]; rfl
  rw [taken, known]
  exact balance

end Moment

namespace Station

variable {α : Type} [Application α] {s s₀ : Station α} {run : List (Moment α)}

/-- **Every peer that was let in was put out again, or takes turns now.** -/
theorem Reachable.peersBalance (h : s.Reachable) : s.node.PeersBalance := by
  refine h.invariant (P := fun s => s.node.PeersBalance) (fun s hs => ?_)
    fun x hx _ balance => hx.peersBalance balance
  obtain ⟨settings, random, -, booted⟩ := hs.node_eq
  have nobody : (Membership.ofRoster settings.roster).peers settings.node = [] :=
    List.eq_nil_iff_forall_not_mem.2 fun b hb => by
      rw [Membership.mem_peers, Membership.isEligible_ofRoster] at hb
      exact absurd hb.1 nofun
  rw [booted]
  change 0 = 0 + ((Membership.ofRoster settings.roster).peers settings.node).length
  rw [nobody]
  rfl

/-- **Every turn that was taken** was handed off, was given up, has ended where nobody was left, or
is going on. -/
theorem Run.turnsBalance (h : s₀.Run run s) (boot : s₀.Booted) :
    s.node.stats.turnsTaken = s.node.turnsKnown + run.countP (·.EndsAlone) := by
  induction h with
  | refl =>
    obtain ⟨settings, random, -, booted⟩ := boot.node_eq
    rw [booted]
    rfl
  | @step run x h hx ih =>
    have balance := hx.turnsBalance (h.reachable boot.reachable)
    rw [List.countP_append, List.countP_singleton]
    simp only [decide_eq_true_iff]
    omega

end Station

/-- **Nothing is lost count of.**  After any run of a station, the turns that it has taken are those
that it handed off, those that it gave up for another token, those that ended where nobody was left,
and the one that is going on if it is master; and the peers that it has let in are those that it has
put out and those that take turns. -/
theorem turns_and_peers_accounted [Application α] {s₀ s : Station α} {run : List (Moment α)}
    (boot : s₀.Booted) (h : s₀.Run run s) :
    s.node.stats.turnsTaken = s.node.stats.turnsHandedOff + s.node.stats.tokensYielded +
        run.countP (·.EndsAlone) + s.node.master.toNat ∧
      s.node.stats.admissions =
        s.node.stats.evictions + (s.node.table.peers s.node.own).length := by
  refine ⟨?_, (h.reachable boot.reachable).peersBalance⟩
  rw [h.turnsBalance boot, Node.turnsKnown]
  exact Nat.add_right_comm _ _ _

/-- Node 1 has four turns: the first one it hands off to node 2, the second one it gives up for a
better token, after the third one node 2 is gone, and the fourth one goes on. -/
def fourTurns? : Option (Station Beacon × List (Moment Beacon) × Station Beacon) :=
  let heard (dest : Address) (m : Message) : List Packet := [⟨some ⟨2⟩, dest, m.encode⟩]
  let offer (round : UInt32) := heard .everyone (.turn ⟨1⟩ ⟨7⟩ round)
  Station.played? ⟨1⟩ [
    (.zero, []), (.zero, heard ⟨1⟩ (.joinAck ⟨1⟩ ⟨7⟩ 5 true [⟨1⟩, ⟨2⟩])), (.zero, []),
    (.ofMillis 8000, []), (.ofMillis 8000, []),
    (.ofMillis 8000, heard ⟨1⟩ (.ack (Message.turn ⟨2⟩ ⟨7⟩ 7).encode)), (.ofMillis 8000, []),
    (.ofMillis 9000, offer 8), (.ofMillis 9000, []), (.ofMillis 9000, []),
    (.ofMillis 9000, heard .everyone (.data 9 [])), (.ofMillis 9000, []), (.ofMillis 9000, []),
    (.ofMillis 10000, offer 10), (.ofMillis 10000, []), (.ofMillis 10000, []),
    (.ofMillis 18000, []), (.ofMillis 18000, []), (.ofMillis 19500, []), (.ofMillis 21000, []),
    (.ofMillis 22500, []), (.ofMillis 24000, []), (.ofMillis 24000, []),
    (.ofMillis 24000, offer 12), (.ofMillis 24000, []), (.ofMillis 24000, [])]

theorem isSome_fourTurns? : fourTurns?.isSome = true := by decide +kernel

/-- Node 1 when it is switched on, what it does, and what it is after that. -/
def fourTurns : Station Beacon × List (Moment Beacon) × Station Beacon :=
  fourTurns?.get isSome_fourTurns?

theorem run_fourTurns : fourTurns.1.Booted ∧ fourTurns.1.Run fourTurns.2.1 fourTurns.2.2 :=
  Station.run_of_played? (p := fourTurns) (Option.some_get isSome_fourTurns?).symm

/-- Of four turns one was handed off, one was given up, one ended alone, and one goes on. -/
theorem ends_of_fourTurns : fourTurns.2.2.node.stats.turnsHandedOff = 1 ∧
    fourTurns.2.2.node.stats.tokensYielded = 1 ∧ fourTurns.2.1.countP (·.EndsAlone) = 1 ∧
    fourTurns.2.2.node.master = true ∧ fourTurns.2.2.node.stats.evictions = 1 ∧
    fourTurns.2.2.node.table.peers fourTurns.2.2.node.own = [⟨2⟩] := by
  decide +kernel

/-- The four turns of node 1 have ended in four ways, and node 2 has been let in twice. -/
theorem accounts_of_fourTurns : fourTurns.2.2.node.stats.turnsTaken = 4 ∧
    fourTurns.2.2.node.stats.admissions = 2 := by
  obtain ⟨boot, hrun⟩ := run_fourTurns
  obtain ⟨handedOff, yielded, alone, master, evictions, peers⟩ := ends_of_fourTurns
  obtain ⟨turns, admissions⟩ := turns_and_peers_accounted boot hrun
  rw [handedOff, yielded, alone, master] at turns
  rw [evictions, peers] at admissions
  exact ⟨turns, admissions⟩

end RadioRing
