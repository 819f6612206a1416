import RadioRing.Proofs.Accounts
import RadioRing.Proofs.Exchange

/-!
# Proofs/Eviction — whom a node offers its token to when nobody answers

A node that hears nothing offers its token to one of its peers after the other, in the order of the
ring.  `HandOff.Begins` says where it stands when it is about to make an offer, and `HandOff.Awaits`
while an offer waits: how many more are left to the same node, and when the next one is due.  **A
wait that nobody ends makes the offers that are left and puts the node out that they are for**
(`Station.Run.of_awaits`), which leaves the peers behind it in the ring.  So the whole walk is one
round offered to every peer equally often, and the node is alone at its end
(`silent_peers_evicted`).
-/

namespace RadioRing

/-- **Whoever comes next and is put out does not change the walk behind it.** -/
theorem Membership.following_mark_next {m : Membership} {a b : Address} {rest : List Address}
    (h : m.following a = b :: rest) : (m.mark b false).following a = rest := by
  have hsorted := pairwise_gap_following m a
  rw [h] at hsorted
  obtain ⟨hhead, hrest⟩ := List.pairwise_cons.1 hsorted
  refine eq_of_pairwise_gap (pairwise_gap_following _ a) hrest fun x => ?_
  have hmem : x ∈ m.following a ↔ x = b ∨ x ∈ rest := by rw [h, List.mem_cons]
  rw [mem_following] at hmem
  rw [mem_following, isEligible_mark]
  by_cases hx : x = b
  · subst hx
    rw [if_pos rfl, Bool.and_false]
    exact iff_of_false (fun h => absurd h.1 nofun) fun hx => Nat.lt_irrefl _ (hhead x hx)
  · rw [if_neg hx, hmem]
    exact or_iff_right hx

/-- A peer that takes turns and is put out is counted. -/
theorem Node.fst_applyMark_of_peer {n : Node} {a : Address}
    (news : n.table.isNews a false = true) (apart : a ≠ n.own) : (n.applyMark ⟨a, false⟩).1 =
      { n with
        table := n.table.mark a false
        stats.evictions := n.stats.evictions + 1 } := by
  simp [applyMark, news, apart]

/-- The states in which a node gives its token away. -/
def State.isGiving : State → Bool
  | offering | awaitingTaker _ => true
  | _ => false

/-- The second reading comes `d` after the first one, in milliseconds, unless the clock ends before
that. -/
def Timestamp.Apart (d : Duration) (now later : Timestamp) : Prop :=
  now.millis + d.wholeMillis ≤ later.millis ∨ Duration.maxMillis < now.millis + d.wholeMillis

theorem Timestamp.Apart.of_elapsed {d : Duration} {now later : Timestamp}
    (h : (Deadline.after now d).moment ≤ later) : now.Apart d later := by
  have hle : min (now.millis + d.wholeMillis) Duration.maxMillis ≤ later.millis := h
  unfold Timestamp.Apart
  omega

/-- What does not change while a node gives its token away. -/
structure HandOff where
  settings : Settings
  session : Session
  round : UInt32

namespace HandOff

/-- The offer of the token to one node. -/
def offer (o : HandOff) (taker : Address) : Emission := .toAll (.turn taker o.session o.round)

/-- How often an offer is repeated. -/
def repetitions (o : HandOff) : Nat := o.settings.offerRetryLimit.toNat

/-- The time between two offers to the same node. -/
def pause (o : HandOff) : Duration := o.settings.timings.offerRetry

/-- Everything that is offered to peers that do not answer. -/
def offers (o : HandOff) (peers : List Address) : List Emission :=
  peers.flatMap fun taker => List.replicate (o.repetitions + 1) (o.offer taker)

variable {o : HandOff} {n : Node} {taker : Address} {peers rest : List Address}
  {left evicted : Nat} {due : Deadline}

theorem offer_inj {other : Address} (h : o.offer taker = o.offer other) : taker = other :=
  (Message.turn.inj (congrArg Emission.message h)).1

/-- The node is about to offer the token, `peers` take turns besides it, the next one first, and it
has put `evicted` nodes out so far. -/
structure Begins (o : HandOff) (peers : List Address) (evicted : Nat) (n : Node) : Prop where
  state : n.state = .offering
  settings : n.settings = o.settings
  member : n.session = some o.session
  round : n.offeredRound?.getD n.rounds.next = o.round
  ring : n.table.following n.own = peers
  count : n.stats.evictions = evicted

/-- The offer to `taker` waits, and is made again at `due` if that is not yet done as often as it
may be: `left` times more. -/
structure Awaits (o : HandOff) (taker : Address) (rest : List Address) (left : Nat)
    (due : Deadline) (evicted : Nat) (n : Node) : Prop where
  state : n.state = .awaitingTaker taker
  settings : n.settings = o.settings
  member : n.session = some o.session
  offer : n.offer = some (.turn taker o.session o.round)
  ring : n.table.following n.own = taker :: rest
  left : n.offerRetries + left = o.repetitions
  due : n.timers.offerRetry = due
  count : n.stats.evictions = evicted

end HandOff

namespace Moment

variable {α : Type}

/-- When the step asks to send a frame, and what. -/
def attempt? (x : Moment α) : Option (Timestamp × Emission) :=
  x.reaction.emission.map (x.clock.start, ·)

end Moment

/-- The frames that are asked for in a run, and when. -/
def attempts {α : Type} (run : List (Moment α)) : List (Timestamp × Emission) :=
  run.filterMap Moment.attempt?

section

variable {α : Type} {x : Moment α} {run : List (Moment α)}

theorem attempts_cons_of_none (h : x.attempt? = none) : attempts (x :: run) = attempts run :=
  List.filterMap_cons_none h

theorem attempts_cons_of_some {a : Timestamp × Emission} (h : x.attempt? = some a) :
    attempts (x :: run) = a :: attempts run :=
  List.filterMap_cons_some h

theorem attempts_append (early late : List (Moment α)) :
    attempts (early ++ late) = attempts early ++ attempts late :=
  List.filterMap_append

end

variable {α : Type} [Application α] {o : HandOff} {x : Moment α} {taker : Address}
  {peers rest : List Address} {left evicted : Nat} {due : Deadline}

namespace Moment

/-- **The first offer** is made to the next node in the ring. -/
theorem Happens.awaits_of_begins (h : x.Happens)
    (hn : o.Begins (taker :: rest) evicted x.before.node) :
    x.attempt? = some (x.clock.start, o.offer taker) ∧
      o.Awaits taker rest o.repetitions (.after x.clock.start o.pause) evicted x.after.node := by
  have hr := h.reaction_eq (r := x.before.node.offerToken x.before.app x.clock.start)
    (by rw [Node.react, hn.state])
  unfold Node.offerToken at hr
  simp only [hn.member, Membership.successor_of_following hn.ring, hn.round] at hr
  have hafter := h.node_after_of_uncredited (.awaitingTaker taker) (by rw [hr])
    (by rw [hr]; rfl) (Or.inr rfl)
  rw [hr] at hafter
  refine ⟨by rw [attempt?, hr]; rfl, ?_⟩
  rw [hafter]
  exact ⟨rfl, hn.settings, rfl, rfl, hn.ring, Nat.zero_add _,
    congrArg (fun s => Deadline.after x.clock.start s.timings.offerRetry) hn.settings, hn.count⟩

/-- **With nobody left to offer its token to a node is alone.** -/
theorem Happens.alone_of_begins (h : x.Happens) (hn : o.Begins [] evicted x.before.node) :
    x.attempt? = none ∧ x.after.node.state = .alone ∧ x.after.node.master = false ∧
      x.after.node.offer = none ∧ x.after.node.table = x.before.node.table ∧
      x.after.node.stats.evictions = evicted := by
  have hr := h.reaction_eq (r := x.before.node.offerToken x.before.app x.clock.start)
    (by rw [Node.react, hn.state])
  have nobody : x.before.node.table.successor x.before.node.own = none := by
    rw [Membership.successor_eq_head?, hn.ring]
    rfl
  unfold Node.offerToken at hr
  simp only [hn.member, nobody] at hr
  have hstats := h.stats_after (by rw [hr]; nofun)
  obtain ⟨timers, random, e, a, hafter⟩ := h.node_after
  refine ⟨by rw [attempt?, hr]; rfl, ?_, ?_, ?_, ?_, ?_⟩
  · rw [hafter, hr]
    rfl
  · rw [hafter, hr]
  · rw [hafter, hr]
  · rw [hafter, hr]
    rfl
  · rw [hstats, hr]
    cases x.taken <;> exact hn.count

/-- **What a step makes of an offer that waits when nothing is heard**: it waits on, it is made
again, or the node that it is for is put out. -/
inductive Continues (o : HandOff) (taker : Address) (rest : List Address) (left : Nat)
    (due : Deadline) (evicted : Nat) (x : Moment α) : Prop
  | waits (quiet : x.attempt? = none)
      (awaits : o.Awaits taker rest left due evicted x.after.node)
  | repeats {fewer : Nat} (spent : left = fewer + 1) (late : due.moment ≤ x.clock.start)
      (attempt : x.attempt? = some (x.clock.start, o.offer taker))
      (awaits : o.Awaits taker rest fewer (.after x.clock.start o.pause) evicted x.after.node)
  | evicts (spent : left = 0) (quiet : x.attempt? = none)
      (begins : o.Begins rest (evicted + 1) x.after.node)

theorem Happens.continues (h : x.Happens)
    (hn : o.Awaits taker rest left due evicted x.before.node) (silent : x.heard = none) :
    x.Continues o taker rest left due evicted := by
  have hr := h.reaction_eq
    (r := x.before.node.awaitTaker x.before.app taker x.clock.start none)
    (by rw [Node.react, hn.state, silent])
  have hlimit : x.before.node.settings.offerRetryLimit.toNat = x.before.node.offerRetries + left :=
    (congrArg (·.offerRetryLimit.toNat) hn.settings).trans hn.left.symm
  unfold Node.awaitTaker at hr
  cases hdue : x.before.node.timers.offerRetry.elapsed x.clock.start with
  | false =>
    rw [hdue] at hr
    have hafter := h.node_after_of_uncredited (.awaitingTaker taker) (by rw [hr]; rfl)
      (by rw [hr]; rfl) (Or.inr rfl)
    refine .waits (by rw [attempt?, hr]; rfl) ?_
    rw [hafter, hr]
    exact ⟨rfl, hn.settings, hn.member, hn.offer, hn.ring, hn.left, hn.due, hn.count⟩
  | true =>
    rw [hdue, if_pos rfl, hlimit] at hr
    have hlate : due.moment ≤ x.clock.start := by
      rw [← hn.due]
      exact of_decide_eq_true hdue
    cases left with
    | succ fewer =>
      rw [if_neg (by omega)] at hr
      have hafter := h.node_after_of_uncredited (.awaitingTaker taker) (by rw [hr])
        (by rw [hr, Reaction.credit, hn.offer]; rfl) (Or.inr rfl)
      refine .repeats rfl hlate (by rw [attempt?, hr, hn.offer]; rfl) ?_
      rw [hafter, hr]
      refine ⟨rfl, hn.settings, hn.member, hn.offer, hn.ring, ?_,
        congrArg (fun s => Deadline.after x.clock.start s.timings.offerRetry) hn.settings, hn.count⟩
      rw [← hn.left]
      exact Nat.succ_add_eq_add_succ _ _
    | zero =>
      rw [if_pos (Nat.le_of_eq (Nat.add_zero _))] at hr
      obtain ⟨eligible, apart⟩ := Membership.mem_following.1
        (hn.ring ▸ List.mem_cons_self : taker ∈ x.before.node.table.following x.before.node.own)
      have news : x.before.node.table.isNews taker false = true :=
        Membership.isNews_eq_true_iff.2 ⟨Membership.contains_of_isEligible eligible, eligible⟩
      have hafter := h.node_after_of_unarmed (by rw [hr]; exact Or.inr rfl)
      have hbooked : { x.reaction.node with stats := x.reaction.booked x.taken } =
          x.before.node := by
        rw [hr]
        cases x.taken <;> rfl
      have hmarks : (x.before.node.applyMarks x.reaction.transition.marks).1 =
          { x.before.node with
            table := x.before.node.table.mark taker false
            stats.evictions := x.before.node.stats.evictions + 1 } := by
        rw [hr]
        exact Node.fst_applyMark_of_peer news apart
      rw [hbooked, hmarks, hr] at hafter
      refine .evicts rfl (by rw [attempt?, hr]; rfl) ?_
      rw [hafter]
      refine ⟨rfl, hn.settings, hn.member, ?_, Membership.following_mark_next hn.ring,
        congrArg (· + 1) hn.count⟩
      rw [Node.offeredRound?, hn.offer]
      rfl

end Moment

/-! ## The walk -/

namespace Station

variable {s t : Station α} {run : List (Moment α)}

/-- A node that gives its token away, and later does not, has taken a step. -/
theorem Run.exists_cons_of_isGiving (h : s.Run run t) (giving : s.node.state.isGiving = true)
    (ends : t.node.state.isGiving = false) : ∃ (x : Moment α) (late : List (Moment α)),
      run = x :: late ∧ x.before = s ∧ x.Happens ∧ x.after.Run late t := by
  cases run with
  | nil =>
    rw [h.eq_of_nil, giving] at ends
    exact absurd ends nofun
  | cons x late => exact ⟨x, late, rfl, h.of_cons⟩

/-- **A wait that nobody ends** makes the offers that are left, none before it is due and one pause
after the other, and puts the node out that they are for. -/
theorem Run.of_awaits (h : s.Run run t) (hn : o.Awaits taker rest left due evicted s.node)
    (silent : ∀ x ∈ run, x.heard = none) (ends : t.node.state.isGiving = false) :
    ∃ (waits late : List (Moment α)) (u : Station α), run = waits ++ late ∧ u.Run late t ∧
      o.Begins rest (evicted + 1) u.node ∧
      (attempts waits).map Prod.snd = List.replicate left (o.offer taker) ∧
      ((attempts waits).Pairwise fun a b => a.1.Apart o.pause b.1) ∧
      ∀ a ∈ attempts waits, due.moment ≤ a.1 := by
  -- A repetition leaves one offer less and sets the deadline anew; all else leaves both.
  induction run generalizing s left due with
  | nil =>
    rw [h.eq_of_nil, hn.state] at ends
    exact absurd ends nofun
  | cons x run ih =>
    obtain ⟨rfl, hx, hrun⟩ := h.of_cons
    obtain ⟨hquiet, hsilent⟩ := List.forall_mem_cons.1 silent
    cases hx.continues hn hquiet with
    | waits quiet awaits =>
      obtain ⟨waits, late, u, rfl, hlate⟩ := ih hrun awaits hsilent
      refine ⟨x :: waits, late, u, rfl, ?_⟩
      rwa [attempts_cons_of_none quiet]
    | @repeats fewer spent due_le attempt awaits =>
      obtain ⟨waits, late, u, rfl, hlate, begins, said, apart, after⟩ := ih hrun awaits hsilent
      refine ⟨x :: waits, late, u, rfl, hlate, begins, ?_⟩
      rw [attempts_cons_of_some attempt]
      refine ⟨?_, List.pairwise_cons.2 ⟨fun a ha => .of_elapsed (after a ha), apart⟩, ?_⟩
      · rw [List.map_cons, said, spent, List.replicate_succ]
      · refine List.forall_mem_cons.2 ⟨due_le, fun a ha => ?_⟩
        have hle : x.clock.start ≤ a.1 := Nat.le_trans (Timestamp.le_after _ _) (after a ha)
        exact Nat.le_trans due_le hle
    | evicts spent quiet begins =>
      refine ⟨[x], run, x.after, rfl, hrun, begins, ?_⟩
      rw [attempts_cons_of_none quiet, spent]
      exact ⟨rfl, List.Pairwise.nil, nofun⟩

/-- **Everything that is offered to the next peer**, from the first offer to its eviction. -/
theorem Run.of_begins_cons (h : s.Run run t) (hn : o.Begins (taker :: rest) evicted s.node)
    (silent : ∀ x ∈ run, x.heard = none) (ends : t.node.state.isGiving = false) :
    ∃ (group late : List (Moment α)) (u : Station α), run = group ++ late ∧ u.Run late t ∧
      o.Begins rest (evicted + 1) u.node ∧
      (attempts group).map Prod.snd = List.replicate (o.repetitions + 1) (o.offer taker) ∧
      (attempts group).Pairwise fun a b => a.1.Apart o.pause b.1 := by
  obtain ⟨x, run, rfl, rfl, hx, hrun⟩ :=
    h.exists_cons_of_isGiving (by rw [hn.state]; rfl) ends
  obtain ⟨attempt, awaits⟩ := hx.awaits_of_begins hn
  obtain ⟨waits, late, u, rfl, hlate, begins, said, apart, after⟩ :=
    hrun.of_awaits awaits (List.forall_mem_cons.1 silent).2 ends
  refine ⟨x :: waits, late, u, rfl, hlate, begins, ?_⟩
  rw [attempts_cons_of_some attempt]
  refine ⟨?_, List.pairwise_cons.2 ⟨fun a ha => .of_elapsed (after a ha), apart⟩⟩
  rw [List.map_cons, said, List.replicate_succ]

theorem Run.own_eq (h : s.Run run t) : t.node.own = s.node.own := by
  induction h with
  | refl => rfl
  | step _ hx ih => exact hx.own_after.trans ih

/-- How the walk through `peers` ends for a node that has put `evicted` nodes out before it. -/
structure Walks (o : HandOff) (peers : List Address) (evicted : Nat) (run : List (Moment α))
    (t : Station α) : Prop where
  said : (attempts run).map Prod.snd = o.offers peers
  apart : (attempts run).Pairwise fun a b => a.2 = b.2 → a.1.Apart o.pause b.1
  count : t.node.stats.evictions = evicted + peers.length
  nobody : t.node.table.following t.node.own = []
  state : t.node.state = .alone
  master : t.node.master = false
  offer : t.node.offer = none

/-- **With nobody left the walk is over in one step.** -/
theorem Run.walks_nil (h : s.Run run t) (hn : o.Begins [] evicted s.node)
    (giving : ∀ x ∈ run, x.before.node.state.isGiving = true)
    (ends : t.node.state.isGiving = false) : Walks o [] evicted run t := by
  obtain ⟨x, run, rfl, rfl, hx, hrun⟩ :=
    h.exists_cons_of_isGiving (by rw [hn.state]; rfl) ends
  obtain ⟨quiet, alone, master, offer, table, count⟩ := hx.alone_of_begins hn
  cases run with
  | cons y run =>
    obtain ⟨hy, -, -⟩ := hrun.of_cons
    have hgiving := giving y (List.mem_cons_of_mem _ List.mem_cons_self)
    rw [hy, alone] at hgiving
    exact absurd hgiving nofun
  | nil =>
    obtain rfl := hrun.eq_of_nil
    refine ⟨?_, ?_, count, ?_, alone, master, offer⟩
    · rw [attempts_cons_of_none quiet]
      rfl
    · rw [attempts_cons_of_none quiet]
      exact List.Pairwise.nil
    · rw [table, hx.own_after, hn.ring]

omit [Application α] in
/-- **A walk is what is offered to the first peer, and the walk through the others.** -/
theorem Walks.cons {group : List (Moment α)} (hnew : taker ∉ rest)
    (said : (attempts group).map Prod.snd = List.replicate (o.repetitions + 1) (o.offer taker))
    (apart : (attempts group).Pairwise fun a b => a.1.Apart o.pause b.1)
    (h : Walks o rest (evicted + 1) run t) :
    Walks o (taker :: rest) evicted (group ++ run) t := by
  refine ⟨?_, ?_, ?_, h.nobody, h.state, h.master, h.offer⟩
  · rw [attempts_append, List.map_append, said, h.said]
    rfl
  · rw [attempts_append]
    refine List.pairwise_append.2 ⟨apart.imp ?_, h.apart, fun a ha b hb hab => ?_⟩
    · exact fun hab _ => hab
    · -- Nobody else is offered the token with the same frame.
      have ha' : a.2 = o.offer taker := List.eq_of_mem_replicate (said ▸ List.mem_map_of_mem ha)
      have hb' : b.2 ∈ o.offers rest := h.said ▸ List.mem_map_of_mem hb
      obtain ⟨other, hother, hreplicate⟩ := List.mem_flatMap.1 hb'
      rw [← hab, ha'] at hreplicate
      rw [HandOff.offer_inj (List.eq_of_mem_replicate hreplicate)] at hnew
      exact absurd hother hnew
  · rw [h.count, List.length_cons]
    omega

/-- **A walk through peers that do not answer** offers the token to each of them in turn. -/
theorem Run.walks (peers : List Address) : ∀ {s : Station α} {run : List (Moment α)}
    {evicted : Nat}, s.Run run t → o.Begins peers evicted s.node → (∀ x ∈ run, x.heard = none) →
    (∀ x ∈ run, x.before.node.state.isGiving = true) → t.node.state.isGiving = false →
    Walks o peers evicted run t := by
  induction peers with
  | nil => exact fun h hn _ giving ends => h.walks_nil hn giving ends
  | cons taker rest ih =>
    intro s run evicted h hn silent giving ends
    obtain ⟨group, late, u, rfl, hlate, begins, said, apart⟩ := h.of_begins_cons hn silent ends
    have hnew : taker ∉ rest := by
      have hsorted := Membership.pairwise_gap_following s.node.table s.node.own
      rw [hn.ring] at hsorted
      exact fun hmem => Nat.lt_irrefl _ ((List.pairwise_cons.1 hsorted).1 taker hmem)
    exact .cons hnew said apart (ih hlate begins (List.forall_mem_append.1 silent).2
      (List.forall_mem_append.1 giving).2 ends)

end Station

/-- **Peers that do not answer are put out one by one.**  A node of a network is about to offer its
token for the first time, hears nothing in any step, and takes steps at whatever times until it
neither offers its token nor waits for an answer.  What it has asked to send are offers of the next
round, to each of its peers in the order of the ring, as often as its settings say and once more;
two offers to the same node are a pause apart, unless the clock ends before that.  In the end every
peer has been put out and counted, and the node is alone, without the token and without an offer. -/
theorem silent_peers_evicted {s t : Station α} {run : List (Moment α)} {session : Session}
    (h : s.Run run t) (state : s.node.state = .offering) (member : s.node.session = some session)
    (unoffered : s.node.offer = none) (silent : ∀ x ∈ run, x.heard = none)
    (giving : ∀ x ∈ run, x.before.node.state.isGiving = true)
    (ends : t.node.state.isGiving = false) :
    let peers := s.node.table.following s.node.own
    (attempts run).map Prod.snd = peers.flatMap (fun taker =>
      List.replicate (s.node.settings.offerRetryLimit.toNat + 1)
        (.toAll (.turn taker session s.node.rounds.next))) ∧
    ((attempts run).Pairwise fun a b =>
      a.2 = b.2 → a.1.Apart s.node.settings.timings.offerRetry b.1) ∧
    t.node.stats.evictions = s.node.stats.evictions + peers.length ∧
    (∀ taker ∈ peers, t.node.table.isEligible taker = false) ∧
    t.node.state = .alone ∧ t.node.master = false ∧ t.node.offer = none := by
  intro peers
  have begins : (⟨s.node.settings, session, s.node.rounds.next⟩ : HandOff).Begins peers
      s.node.stats.evictions s.node := by
    refine ⟨state, rfl, member, ?_, rfl, rfl⟩
    rw [Node.offeredRound?, unoffered]
    rfl
  have walk := h.walks peers begins silent giving ends
  refine ⟨walk.said, walk.apart, walk.count, fun taker mem => ?_, walk.state, walk.master,
    walk.offer⟩
  have apart : taker ≠ t.node.own := by
    rw [h.own_eq]
    exact (Membership.mem_following.1 mem).2
  refine Bool.eq_false_iff.2 fun eligible => ?_
  have hmem := Membership.mem_following.2 ⟨eligible, apart⟩
  rw [walk.nobody] at hmem
  exact absurd hmem List.not_mem_nil

/-- The turn of node 2 is over, and neither node 3 nor node 1 takes its token.  The bytes that it
receives meanwhile are no frame. -/
def forlorn? : Option (Station Beacon × List (Moment Beacon) × Station Beacon) := do
  let s ← Station.holder? ⟨2⟩ ⟨1⟩ 5 [⟨1⟩, ⟨2⟩, ⟨3⟩]
  let x ← s.moment? ({} : ScriptedRadio) (.still (.ofMillis 8000))
  let p ← x.after.play? [
    (.ofMillis 8000, []), (.ofMillis 9000, [⟨some ⟨3⟩, .everyone, [9]⟩]), (.ofMillis 9500, []),
    (.ofMillis 11000, []), (.ofMillis 12600, []), (.ofMillis 14100, []),
    (.ofMillis 14100, []), (.ofMillis 15600, []), (.ofMillis 17100, []), (.ofMillis 18600, []),
    (.ofMillis 20100, []), (.ofMillis 20100, [])]
  return (x.after, p)

theorem isSome_forlorn? : forlorn?.isSome = true := by decide +kernel

/-- Node 2 before that, what it does, and node 2 after it. -/
def forlorn : Station Beacon × List (Moment Beacon) × Station Beacon := forlorn?.get isSome_forlorn?

theorem run_forlorn : forlorn.1.Run forlorn.2.1 forlorn.2.2 := by
  have h : forlorn? = some forlorn := (Option.some_get isSome_forlorn?).symm
  simp only [forlorn?, bind, Option.bind_eq_some_iff, pure, Option.some.injEq] at h
  obtain ⟨s, -, x, -, p, hp, he⟩ := h
  rw [← he]
  exact Station.run_of_play? hp

/-- Nobody is heard while node 2 gives its token away. -/
theorem forlorn_gives : forlorn.1.node.state = .offering ∧ forlorn.1.node.session = some ⟨7⟩ ∧
    forlorn.1.node.offer = none ∧ (∀ x ∈ forlorn.2.1, x.heard = none) ∧
    (∀ x ∈ forlorn.2.1, x.before.node.state.isGiving = true) ∧
    forlorn.2.2.node.state.isGiving = false := by
  decide +kernel

/-- **Node 2 offers its token four times to node 3, then four times to node 1**, and is alone. -/
theorem silent_peers_evicted_of_forlorn :
    (attempts forlorn.2.1).map Prod.snd =
      List.replicate 4 (.toAll (.turn ⟨3⟩ ⟨7⟩ 7)) ++ List.replicate 4 (.toAll (.turn ⟨1⟩ ⟨7⟩ 7)) ∧
    forlorn.2.2.node.stats.evictions = 2 ∧ forlorn.2.2.node.state = .alone := by
  obtain ⟨state, member, unoffered, silent, giving, ends⟩ := forlorn_gives
  obtain ⟨said, -, count, -, alone, -⟩ :=
    silent_peers_evicted run_forlorn state member unoffered silent giving ends
  exact ⟨said.trans (by decide +kernel), count.trans (by decide +kernel), alone⟩

end RadioRing
