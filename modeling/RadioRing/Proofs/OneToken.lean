import Mathlib.Algebra.Group.Nat.Defs
import RadioRing.Proofs.Circulation

/-!
# Proofs/OneToken — a ring that nobody leaves has exactly one token

As long as no watchdog runs out and no offer is given up, **the token goes around the ring in
ascending order, one round higher at each hand-off, and is at one node at a time** (`one_token`),
whatever the medium loses, repeats or delays and however the steps of the nodes interleave.  The
invariant is that all nodes fit one stage and that all frames on the air are lawful there.
-/

namespace RadioRing

namespace Circle

variable {α : Type} (c : Circle)

/-- A network that is about to begin: one node starts a turn, the others listen, and nothing is on
its way. -/
structure Begins (w : Network α) : Prop where
  settings : ∀ x ∈ c.ring, (w.station x).node.settings = c.settings x
  table : ∀ x ∈ c.ring, (w.station x).node.table = c.table x
  session : ∀ x ∈ c.ring, (w.station x).node.session = some c.session
  offer : ∀ x ∈ c.ring, (w.station x).node.offer = none
  deferred : ∀ x ∈ c.ring, (w.station x).node.deferred = none
  speaking : (w.station (c.node 0)).node.state = .speaking
  holding : (w.station (c.node 0)).node.rounds.held = c.base
  listening : ∀ x ∈ c.ring, x ≠ c.node 0 → (w.station x).node.state = .listening
  held : ∀ x ∈ c.ring, (w.station x).node.rounds.held ≤ c.base
  seen : ∀ x ∈ c.ring, (w.station x).node.rounds.seen ≤ c.base
  air : w.air = []
  turns : w.turns = []
  taken : w.taken = []

/-- A frame on the air is what a node of the ring has put there, and lawful. -/
def Sent (reports : Bool) (g : Stage) (t : Transmission) : Prop :=
  ∃ (x : Address) (e : Emission), x ∈ c.ring ∧ t = .ofEmission reports x e ∧
    e.message.WellFormed ∧ c.Lawful g x e.message

/-- An entry of a log is about the given node and round. -/
def Logs (log : List (Address × UInt32)) (node : Nat → Address) (round : Nat → Nat) : Prop :=
  ∀ k a r, log[k]? = some (a, r) → a = node k ∧ r.toNat = round k

/-- What is on record at a stage: every hand-off and every turn, in the order of the ring. -/
structure Records (g : Stage) (turns taken : List (Address × UInt32)) : Prop where
  passed : taken.length = g.passed
  taken : Logs taken (fun k => c.node (k + 1)) fun k => c.round (k + 1)
  handed : ∀ k < g.passed, c.next k = some (c.node (k + 1))
  started : turns.length = g.started
  turns : Logs turns c.node c.round

/-- **The invariant of the circulation.** -/
structure Invariant (reports : Bool) (g : Stage) (w : Network α) : Prop where
  fits : ∀ x ∈ c.ring, c.Fits g x (w.station x).node
  air : ∀ t ∈ w.air, c.Sent reports g t
  records : c.Records g w.turns w.taken

variable {c} {reports : Bool} {g g' : Stage} {w w' : Network α} {x : Address} {slot : Slot}
  {clock : Readings}

theorem Begins.invariant (h : c.Begins w) : c.Invariant reports (.ready 0) w where
  fits x hx := by
    refine ⟨h.settings x hx, h.table x hx, h.session x hx,
      ⟨UInt32.le_iff_toNat_le.1 (h.held x hx), UInt32.le_iff_toNat_le.1 (h.seen x hx),
        fun k hk hkx => ?_⟩, ?_, ?_⟩
    · obtain rfl := Nat.le_zero.1 hk
      rw [← hkx, h.holding]
      exact Nat.le_refl _
    · rw [h.deferred x hx]
      nofun
    · unfold Place
      by_cases hfirst : x = c.node 0
      · rw [hfirst, h.speaking]
        exact ⟨0, rfl, rfl⟩
      · rw [h.listening x hx hfirst]
        exact hfirst
  air := by rw [h.air]; nofun
  records := by
    rw [h.turns, h.taken]
    exact ⟨rfl, nofun, nofun, rfl, nofun⟩

theorem Sent.mono (hp : g.passed ≤ g'.passed) (hi : g.issued ≤ g'.issued) {t : Transmission}
    (h : c.Sent reports g t) : c.Sent reports g' t := by
  obtain ⟨x, e, hx, ht, hw, hl⟩ := h
  exact ⟨x, e, hx, ht, hw, hl.mono hp hi⟩

/-- What a station hears in a permitted step is lawful. -/
theorem Invariant.hears (h : c.Invariant reports g w) (hp : w.Permits c.ring reports x slot clock)
    {m : Inbound} (hm : ((w.station x).hear slot clock.start).1 = some m) : c.Hears g x m := by
  obtain ⟨p, hp', hread⟩ := Station.read_of_hear_slot hm
  obtain ⟨t, ht, rfl⟩ := hp.heard p hp'
  obtain ⟨y, e, hy, rfl, hw, hl⟩ := h.air t ht
  rw [hp.kind] at hread
  obtain ⟨rfl, hforeign⟩ := Transmission.eq_of_read hw hread
  refine ⟨?_, hy, rfl, hl⟩
  rwa [← (h.fits x hp.member).own_eq hp.member]

/-! ## What is on record -/

theorem Logs.append {log : List (Address × UInt32)} {node : Nat → Address} {round : Nat → Nat}
    (h : Logs log node round) {r : UInt32} (hx : x = node log.length)
    (hr : r.toNat = round log.length) : Logs (log ++ [(x, r)]) node round := by
  intro k a r' hk
  rcases Nat.lt_or_ge k log.length with hlt | hge
  · rw [List.getElem?_append_left hlt] at hk
    exact h k a r' hk
  · rw [List.getElem?_append_right hge] at hk
    rcases Nat.eq_zero_or_pos (k - log.length) with hz | hpos
    · have hlen : k = log.length := by omega
      rw [hz] at hk
      obtain ⟨rfl, rfl⟩ := Prod.mk.inj (Option.some.inj hk)
      exact hlen ▸ ⟨hx, hr⟩
    · rw [List.getElem?_eq_none hpos] at hk
      exact absurd hk nofun

/-- **Turns and hand-offs are recorded as the stage goes on.** -/
theorem Records.advance {turns taken : List (Address × UInt32)} (h : c.Records g turns taken)
    {s s' : State} (ha : c.Advances x s s' g g') {r r' : UInt32}
    (hr : x = c.node g.passed → r.toNat = c.round g.passed)
    (hr' : x = c.node g'.passed → r'.toNat = c.round g'.passed) :
    c.Records g' (if s = .speaking then turns ++ [(x, r)] else turns)
      (if s'.hasTaken then taken ++ [(x, r')] else taken) := by
  obtain ⟨hpassed, htaken, hhanded, hstarted, hturns⟩ := h
  cases ha with
  | stays _ hs hs' =>
    rw [if_neg hs, hs']
    exact ⟨hpassed, htaken, hhanded, hstarted, hturns⟩
  | speaks k hx hs' =>
    rw [if_pos rfl, hs']
    refine ⟨hpassed, htaken, hhanded, ?_, hturns.append ?_ ?_⟩
    · rw [List.length_append, hstarted]
      rfl
    · rw [hstarted]
      exact hx
    · rw [hstarted]
      exact hr hx
  | offers k hx hs hs' =>
    rw [if_neg hs, hs']
    exact ⟨hpassed, htaken, hhanded, hstarted, hturns⟩
  | takes k hx hk hs hs' =>
    rw [if_neg hs, hs']
    refine ⟨?_, htaken.append ?_ ?_, fun j hj => ?_, hstarted, hturns⟩
    · rw [if_pos rfl, List.length_append, hpassed]
      rfl
    · rw [hpassed]
      exact hx
    · rw [hpassed]
      exact hr' hx
    · rcases Nat.lt_or_eq_of_le (Nat.le_of_lt_succ hj) with hlt | rfl
      · exact hhanded j hlt
      · exact hx ▸ hk

/-- **Every permitted step keeps the invariant**, at the same stage or the next one. -/
theorem Invariant.move [Application α] (h : c.Invariant reports g w)
    (hp : w.Permits c.ring reports x slot clock) (few : c.round g.passed < lastRound)
    (hw : w.move x slot clock = .ok w') : ∃ g', c.Invariant reports g' w' := by
  have hx := hp.member
  have hfits := h.fits x hx
  unfold Network.move at hw
  split at hw
  · exact absurd hw nofun
  · rename_i s' slot' events hstep
    obtain ⟨r, taken, hr, hout⟩ := Station.step_slot_eq_ok hp.idle hstep
    obtain ⟨g', hadvance, hleads⟩ := leads_react hfits hx hp.watchdog hp.patient few
      (fun m hm => h.hears hp hm) hr.reacts
    obtain ⟨timers, random, e, a, hn, -⟩ := hr.node_eq
    have hfits' : c.Fits g' x s'.node := by
      obtain ⟨hset, htab, hses, hrounds, hdef, hplace⟩ := hleads.fits
      rw [hn]
      refine ⟨hset, ?_, hses, hrounds, hdef, hplace⟩
      rw [hleads.marks]
      exact htab
    obtain rfl := Except.ok.inj hw
    refine ⟨g', ⟨fun y hy => ?_, fun t ht => ?_, ?_⟩⟩
    · dsimp only
      by_cases hyx : y = x
      · rw [if_pos hyx, hyx]
        exact hfits'
      · rw [if_neg hyx]
        exact (h.fits y hy).advance hadvance hyx
    · rcases List.mem_append.1 ht with ht | ht
      · exact (h.air t ht).mono hadvance.passed_le hadvance.issued_le
      · obtain ⟨q, hq, rfl⟩ := List.mem_map.1 ht
        obtain ⟨e, he, rfl⟩ := hout q hq
        rw [hp.kind, hfits.own_eq hx]
        exact ⟨x, e, hx, rfl, hleads.emission e he⟩
    · have hstate : s'.node.state = r.transition.next := by rw [hn]
      rw [← hstate] at hadvance
      exact h.records.advance hadvance (fun hown => hfits.rounds.held_eq hown) fun hown =>
        hfits'.rounds.held_eq hown

/-! ## Where the token is -/

/-- Only the node that the token has come to has its turn, and not while it offers the token. -/
theorem Fits.turn_iff {n : Node} (h : c.Fits g x n) :
    (n.state.hasTaken = true ∨ n.state.isHolding = true) ↔
      x = c.node g.passed ∧ ∀ k, g ≠ .offered k := by
  have hplace := h.place
  unfold Place at hplace
  cases hs : n.state <;> simp only [hs] at hplace
  case listening | acknowledging =>
    refine iff_of_false (fun ht => ?_) fun hx => ?_
    · rcases ht with ht | ht <;> exact absurd ht nofun
    · first | exact hplace hx.1 | exact hplace.1 hx.1
  case awaitingTaker =>
    refine iff_of_false (fun ht => ?_) fun hx => ?_
    · rcases ht with ht | ht <;> exact absurd ht nofun
    · obtain ⟨k, -, -, -, -, -, hg | ⟨-, hne⟩⟩ := hplace
      · exact hx.2 k hg
      · exact hne hx.1
  case accepting =>
    obtain ⟨⟨k, rfl, hx⟩, -⟩ := hplace
    exact iff_of_true (Or.inl rfl) ⟨hx, nofun⟩
  case speaking =>
    obtain ⟨k, rfl, hx⟩ := hplace
    exact iff_of_true (Or.inr rfl) ⟨hx, nofun⟩
  all_goals
    obtain ⟨⟨k, rfl, hx⟩, -⟩ := hplace
    exact iff_of_true (Or.inr rfl) ⟨hx, nofun⟩

/-- While the token is offered, its node waits for the taker. -/
theorem Fits.offers {n : Node} {k : Nat} (h : c.Fits (.offered k) x n) (hx : x = c.node k) :
    ∃ taker round, n.state = .awaitingTaker taker ∧
      n.offer = some (.turn taker c.session round) ∧ round.toNat = c.round (k + 1) := by
  have hplace := h.place
  unfold Place at hplace
  cases hs : n.state <;> simp only [hs] at hplace
  case listening => exact absurd hx hplace
  case acknowledging => exact absurd hx hplace.1
  case accepting =>
    obtain ⟨⟨j, hj, -⟩, -⟩ := hplace
    exact absurd hj nofun
  case speaking =>
    obtain ⟨j, hj, -⟩ := hplace
    exact absurd hj nofun
  case awaitingTaker taker =>
    obtain ⟨j, round, -, -, hround, hoffer, hg | ⟨-, hne⟩⟩ := hplace
    · exact ⟨taker, round, rfl, hoffer, by rw [hround, Stage.offered.inj hg]⟩
    · exact absurd hx hne
  all_goals
    obtain ⟨⟨j, hj, -⟩, -⟩ := hplace
    exact absurd hj nofun

/-- **The token is with the node that it has come to**, and with no other. -/
theorem Invariant.hasToken_iff (h : c.Invariant reports g w) (hx : x ∈ c.ring) :
    w.HasToken x ↔ x = c.node g.passed := by
  have hfits := h.fits x hx
  constructor
  · rintro (hturn | ⟨taker, session, round, hs, hoffer, hnot⟩)
    · exact (hfits.turn_iff.1 hturn).1
    · have hplace := hfits.place
      unfold Place at hplace
      simp only [hs] at hplace
      obtain ⟨k, r, hk, hnext, hround, hoffer', rfl | ⟨hlt, -⟩⟩ := hplace
      · exact hk
      · -- An offer of an earlier stage has been taken.
        obtain ⟨-, -, hrounds⟩ := Message.turn.inj (Option.some.inj (hoffer.symm.trans hoffer'))
        have hlen : k < w.taken.length := h.records.passed.symm ▸ hlt
        have hget : w.taken[k]? = some w.taken[k] := List.getElem?_eq_getElem hlen
        obtain ⟨ha, hr⟩ := h.records.taken k w.taken[k].1 w.taken[k].2 hget
        have htaker : w.taken[k].1 = taker :=
          ha.trans (Option.some.inj ((h.records.handed k hlt).symm.trans hnext))
        have hround : w.taken[k].2 = round :=
          UInt32.toNat_inj.1 (hr.trans (hround.symm.trans (congrArg UInt32.toNat hrounds.symm)))
        exact absurd (htaker ▸ hround ▸ List.getElem_mem hlen) hnot
  · intro hown
    cases g with
    | ready k | held k => exact Or.inl (hfits.turn_iff.2 ⟨hown, nofun⟩)
    | offered k =>
      obtain ⟨taker, round, hs, hoffer, hround⟩ := hfits.offers hown
      refine Or.inr ⟨taker, c.session, round, hs, hoffer, fun hmem => ?_⟩
      obtain ⟨j, hj, hget⟩ := List.getElem_of_mem hmem
      obtain ⟨-, hr⟩ := h.records.taken j taker round (by rw [List.getElem?_eq_getElem hj, hget])
      have hjk : j < k := Nat.lt_of_lt_of_eq hj h.records.passed
      exact Nat.ne_of_lt (Nat.add_lt_add_left (Nat.succ_lt_succ hjk) _) (hr.symm.trans hround)

/-- A permitted step happens. -/
theorem Invariant.exists_move [Application α] (h : c.Invariant reports g w)
    (hp : w.Permits c.ring reports x slot clock) : ∃ w', w.move x slot clock = .ok w' := by
  have hfits := h.fits x hp.member
  have hplace := hfits.place
  unfold Place at hplace
  have hstates : (w.station x).node.state ≠ .requesting ∧ (w.station x).node.state ≠ .founding ∧
      (w.station x).node.state ≠ .alone := by
    cases hs : (w.station x).node.state <;> simp only [hs] at hplace <;>
      exact ⟨nofun, nofun, nofun⟩
  have hoffer : (w.station x).node.state = .offering →
      ∃ taker, (w.station x).node.table.successor (w.station x).node.own = some taker := by
    intro hs
    simp only [hs] at hplace
    obtain ⟨⟨k, -, hk⟩, -⟩ := hplace
    rw [hfits.own_eq hp.member, hfits.table, hk]
    exact c.exists_next k
  obtain ⟨⟨s', slot', events⟩, hstep⟩ :=
    Station.exists_step_of_state hstates.1 hstates.2.1 hstates.2.2 hoffer slot clock
  unfold Network.move
  rw [hstep]
  exact ⟨_, rfl⟩

/-- Hand-offs are never taken back. -/
theorem length_taken_le_of_move [Application α] (h : w.move x slot clock = .ok w') :
    w.taken.length ≤ w'.taken.length := by
  unfold Network.move at h
  split at h
  · exact absurd h nofun
  · obtain rfl := Except.ok.inj h
    dsimp only
    split
    · rw [List.length_append]
      exact Nat.le_add_right _ _
    · exact Nat.le_refl _

/-- **The invariant holds throughout the circulation.** -/
theorem Begins.run [Application α] {w₀ : Network α} (h : c.Begins w₀)
    (hr : Network.Run c.ring reports w₀ w) (few : w.taken.length < 2 ^ 32 - 1 - c.base.toNat) :
    ∃ g, c.Invariant reports g w := by
  -- Hand-offs only add up, so that few of them now were few at any time before.
  induction hr with
  | refl => exact ⟨_, h.invariant⟩
  | step _ hp hm ih =>
    have hle := length_taken_le_of_move hm
    obtain ⟨g, hg⟩ := ih (Nat.lt_of_le_of_lt hle few)
    refine hg.move hp ?_ hm
    have hpassed := hg.records.passed
    simp only [round, lastRound]
    omega

end Circle

open RadioRing.Circle in
/-- **A ring that nobody leaves has exactly one token**, at every moment of every run: at most one
node has its turn, exactly one has the token, the turns go around the ring in ascending order with
one round more at each, and no step fails.  Hand-offs are counted when the token is taken. -/
theorem one_token {α : Type} [Application α] {c : Circle} {reports : Bool} {w₀ w : Network α}
    (begins : c.Begins w₀) (run : Network.Run c.ring reports w₀ w)
    (few : w.taken.length < 2 ^ 32 - 1 - c.base.toNat) :
    (∀ a ∈ c.ring, ∀ b ∈ c.ring, w.HasTurn a → w.HasTurn b → a = b) ∧
    (∃ a ∈ c.ring, w.HasToken a ∧ ∀ b ∈ c.ring, w.HasToken b → b = a) ∧
    (∀ k a round, w.turns[k]? = some (a, round) →
      a = c.node k ∧ round.toNat = c.base.toNat + k) ∧
    ∀ x slot clock, w.Permits c.ring reports x slot clock → ∃ w', w.move x slot clock = .ok w' := by
  obtain ⟨g, hg⟩ := begins.run run few
  refine ⟨fun a ha b hb hta htb => ?_, ⟨c.node g.passed, c.node_mem _, ?_, fun b hb htb => ?_⟩,
    hg.records.turns, fun x slot clock hp => hg.exists_move hp⟩
  · exact (((hg.fits a ha).turn_iff.1 hta).1).trans ((hg.fits b hb).turn_iff.1 htb).1.symm
  · exact (hg.hasToken_iff (c.node_mem _)).2 rfl
  · exact (hg.hasToken_iff hb).1 htb

/-! ## A ring of three -/

/-- The ring of the nodes 1, 2 and 3, in which node 1 has the token of round 5. -/
def ringOfThree : Circle where
  ring := [⟨1⟩, ⟨2⟩, ⟨3⟩]
  ascending := by decide
  two := by decide
  session := ⟨7⟩
  named := by decide
  settings := Station.settingsOfThree
  own _ _ := rfl
  accepted := by
    intro x hx
    rcases List.mem_cons.1 hx with rfl | hx
    · rfl
    · rcases List.mem_cons.1 hx with rfl | hx
      · rfl
      · rw [List.mem_singleton.1 hx]
        rfl
  table _ := .ofKeys [⟨1⟩, ⟨2⟩, ⟨3⟩] true
  roster _ _ y hy := by
    rw [AddressMap.contains_iff_mem_keys] at hy
    exact hy
  eligible := by decide
  first := 0
  base := 5

/-- That ring before node 1 starts its turn. -/
def networkOfThree : Network Beacon where
  station x :=
    { node :=
        { settings := Station.settingsOfThree x
          table := .ofKeys [⟨1⟩, ⟨2⟩, ⟨3⟩] true
          state := if x = ⟨1⟩ then .speaking else .listening
          session := some ⟨7⟩
          timers.watchdog := .after .zero (.ofMillis 30000)
          rounds := if x = ⟨1⟩ then ⟨5, 5⟩ else ⟨4, 5⟩
          random := .ofSeed 0 }
      app := { own := x } }

theorem begins_networkOfThree : ringOfThree.Begins networkOfThree := by
  refine ⟨fun _ _ => rfl, fun _ _ => rfl, fun _ _ => rfl, fun _ _ => rfl, fun _ _ => rfl, rfl, rfl,
    fun x _ hx => if_neg hx, ?_, ?_, rfl, rfl, rfl⟩
  · decide
  · decide

/-- The network after a step, or as it was if the step fails. -/
def Network.after (w : Network Beacon) (x : Address) (slot : Slot) (now : Timestamp) :
    Network Beacon :=
  match w.move x slot (.still now) with
  | .ok w' => w'
  | .error _ => w

theorem Network.Run.after {ring : List Address} {w w' : Network Beacon} {x : Address} {slot : Slot}
    {now : Timestamp} (h : Network.Run ring true w w')
    (hp : w'.Permits ring true x slot (.still now))
    (hok : (w'.move x slot (.still now)).isOk = true) :
    Network.Run ring true w (w'.after x slot now) := by
  refine h.step hp ?_
  unfold Network.after
  cases hm : w'.move x slot (.still now) with
  | error e => rw [hm] at hok; exact absurd hok nofun
  | ok w'' => rfl

/-- That ring when node 1 has had its turn and offers the token to node 2. -/
def networkOfThree.offering : Network Beacon :=
  ((networkOfThree.after ⟨1⟩ { reportsSender := true } .zero).after
    ⟨1⟩ { reportsSender := true } (.ofMillis 8000)).after
      ⟨1⟩ { reportsSender := true } (.ofMillis 8000)

/-- What the radio of node 2 does when it receives the offer. -/
def offerOfThree : Slot where
  reportsSender := true
  incoming := some ⟨some ⟨1⟩, .everyone, (Message.turn ⟨2⟩ ⟨7⟩ 6).encode⟩

/-- That ring when node 2 has taken the token. -/
def networkOfThree.taken : Network Beacon :=
  networkOfThree.offering.after ⟨2⟩ offerOfThree (.ofMillis 8000)

/-- When node 2 has taken the token of round 6, the token is nowhere else. -/
theorem one_token_of_three : networkOfThree.taken.taken = [(⟨2⟩, 6)] ∧
    ∀ b ∈ ringOfThree.ring, networkOfThree.taken.HasToken b → b = ⟨2⟩ := by
  have quiet : ∀ {w : Network Beacon} {x : Address} {now : Timestamp}, x ∈ ringOfThree.ring →
      (w.station x).node.state ≠ .listening → (∀ t, (w.station x).node.state ≠ .awaitingTaker t) →
      w.Permits ringOfThree.ring true x { reportsSender := true } (.still now) := fun hx hl ht =>
    ⟨hx, rfl, rfl, nofun, fun h => absurd h hl, fun t h => absurd h (ht t)⟩
  have run : Network.Run ringOfThree.ring true networkOfThree networkOfThree.taken := by
    refine Network.Run.after (.after (.after (.after (.refl _) ?_ ?_) ?_ ?_) ?_ ?_) ?_ ?_
    · exact quiet (by decide) (by decide) nofun
    · decide
    · exact quiet (by decide) (by decide) nofun
    · decide
    · exact quiet (by decide) (by decide) nofun
    · decide
    · refine ⟨by decide, rfl, rfl, fun p hp => ?_, fun _ => by decide, nofun⟩
      obtain rfl := Option.some.inj hp
      exact ⟨⟨⟨1⟩, .everyone, (Message.turn ⟨2⟩ ⟨7⟩ 6).encode⟩, by decide, rfl⟩
    · decide
  have htaken : networkOfThree.taken.taken = [(⟨2⟩, 6)] := by decide
  obtain ⟨-, ⟨a, ha, -, hunique⟩, -, -⟩ :=
    one_token begins_networkOfThree run (by rw [htaken]; decide)
  have hown : networkOfThree.taken.HasToken ⟨2⟩ := Or.inl (Or.inl (by decide))
  refine ⟨htaken, fun b hb h => ?_⟩
  rw [hunique b hb h, hunique ⟨2⟩ (by decide) hown]

end RadioRing
