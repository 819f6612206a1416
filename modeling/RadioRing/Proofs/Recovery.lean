import RadioRing.Application.Beacon
import RadioRing.Proofs.Reachable

/-!
# Proofs/Recovery — who takes the token when the ring falls silent

Every expiry of its watchdog moves a listener one address on along the walk around the ring: the
presumed holder loses its place, and the next address is presumed to hold the token — **unless that
is the listener itself, which then claims it**.  Stations with equal tables walk along the same
addresses, so whenever their timers fire it is the first of them on the walk that claims
(`one_claimant`).
-/

namespace RadioRing

/-! ## Between two addresses -/

namespace Membership

variable {m : Membership} {a b x : Address}

/-- Everybody who takes turns strictly between `a` and `b`, in the order of a walk from `a`. -/
def between (m : Membership) (a b : Address) : List Address :=
  (m.following a).filter fun x => a.gap x < a.gap b

theorem mem_between :
    x ∈ m.between a b ↔ m.isEligible x = true ∧ x ≠ a ∧ a.gap x < a.gap b := by
  rw [between, List.mem_filter, mem_following, decide_eq_true_iff, and_assoc]

/-- **The walk from `a` passes exactly those between before it comes to `b`.** -/
theorem exists_following_eq (hb : m.isEligible b = true) (hba : b ≠ a) :
    ∃ beyond, m.following a = m.between a b ++ b :: beyond := by
  obtain ⟨before, beyond, h⟩ := List.append_of_mem (mem_following.2 ⟨hb, hba⟩)
  have hsorted := pairwise_gap_following m a
  rw [h] at hsorted
  obtain ⟨-, htail, hcross⟩ := List.pairwise_append.1 hsorted
  have hbefore : (before.filter fun x => a.gap x < a.gap b) = before :=
    List.filter_eq_self.2 fun x hx => decide_eq_true (hcross x hx b List.mem_cons_self)
  have hbeyond : ((b :: beyond).filter fun x => a.gap x < a.gap b) = [] := by
    refine List.filter_eq_nil_iff.2 fun x hx hlt => ?_
    have hxb := of_decide_eq_true hlt
    rcases List.mem_cons.1 hx with rfl | hx
    · exact Nat.lt_irrefl _ hxb
    · exact Nat.lt_asymm hxb ((List.pairwise_cons.1 htail).1 x hx)
  refine ⟨beyond, ?_⟩
  rw [between, h, List.filter_append, hbefore, hbeyond, List.append_nil]

end Membership

/-! ## Counting expiries -/

namespace Node

variable {α : Type}

theorem awaited?_of_listening {n : Node} (h : n.state = .listening) :
    n.awaited? = some n.timers.watchdog := by
  rw [awaited?, h]

/-- **The counter counts the steps of a listener whose watchdog has run out**, and no others. -/
theorem Acts.watchdogFires_eq {n n' : Node} {clock : Readings} {heard : Option Inbound}
    {e : Option Emission} {t : Transition} (h : n.Acts clock heard n' e t) :
    n'.stats.watchdogFires = n.stats.watchdogFires +
      if n.state = .listening ∧ n.timers.watchdog.elapsed clock.start = true then 1 else 0 := by
  have fires (hs : n.state = .listening) (hd : n.timers.watchdog.elapsed clock.start = true) :
      n.stats.watchdogFires + 1 = n.stats.watchdogFires +
        if n.state = .listening ∧ n.timers.watchdog.elapsed clock.start = true then 1 else 0 := by
    rw [if_pos ⟨hs, hd⟩]
  have rests (hs : n.state = .listening → n.timers.watchdog.elapsed clock.start = false) :
      n.stats.watchdogFires = n.stats.watchdogFires +
        if n.state = .listening ∧ n.timers.watchdog.elapsed clock.start = true then 1 else 0 := by
    rw [if_neg fun h => absurd h.2 (Bool.eq_false_iff.1 (hs h.1)), Nat.add_zero]
  have elsewhere {s : State} (hs : n.state = s) (hne : s ≠ .listening) :=
    rests fun h => absurd (hs.symm.trans h) hne
  cases h with
  | claimsUnopposed state due | claims state due | passesOver state due => exact fires state due
  | hearsListening state early hears makes => cases makes <;> exact rests fun _ => early
  | idles _ early => exact rests fun hs => early _ (awaited?_of_listening hs)
  | waitsToReply state => exact rests fun hs => absurd (hs ▸ state) nofun
  | endsTurn state => exact state.elim (elsewhere · nofun) (elsewhere · nofun)
  | admits state => split <;> exact elsewhere state nofun
  | hearsAlone state _ _ makes => cases makes <;> exact elsewhere state nofun
  | hearsHolding state _ _ _ makes => cases makes <;> exact elsewhere state nofun
  | hearsGiving state _ _ makes => cases makes <;> exact elsewhere state nofun
  | asks state | asksAgain state | stopsAsking state | joins state | founds state | forgets state
  | rescans state | acknowledges state | accepts state | speaks state | turnsToRepeat state
  | repeats state | strays state | findsNobody state | offers state | offersAgain state
  | stopsOffering state => exact elsewhere state nofun

/-! ## An expiry -/

variable {n : Node} {app : α} {start : Timestamp} {p q : Address}

theorem presumedDead?_eq (hp : n.presumedHolder = some p) (hne : p ≠ n.own) :
    n.presumedDead? = some p := by
  rw [presumedDead?, hp]
  exact if_pos hne

/-- **Whoever does not come next waits for the one who does.** -/
theorem fireWatchdog_eq_wait (hp : n.presumedHolder = some p) (hne : p ≠ n.own)
    (hq : n.table.successor p = some q) (hqn : q ≠ n.own) : n.fireWatchdog app start =
      { node := { n with
          stats.watchdogFires := n.stats.watchdogFires + 1
          presumedHolder := some q
          timers.watchdog := .after start n.settings.timings.watchdog }
        app
        before := [.presumedDead p, .waitingForNext q]
        transition := (Transition.goTo .listening).mark p false } := by
  have hdead := presumedDead?_eq (n := { n with
    stats.watchdogFires := n.stats.watchdogFires + 1 }) hp hne
  unfold fireWatchdog
  simp only [hdead, hq]
  exact if_pos hqn

/-- **Whoever comes next claims the token.** -/
theorem fireWatchdog_eq_claim (hp : n.presumedHolder = some p) (hne : p ≠ n.own)
    (hq : n.table.successor p = some n.own) : n.fireWatchdog app start =
      { node := { n with
          stats.watchdogFires := n.stats.watchdogFires + 1
          rounds := n.rounds.claim }
        app
        before := [.presumedDead p, .nextInLine]
        transition := (Transition.goTo .speaking).mark p false } := by
  have hdead := presumedDead?_eq (n := { n with
    stats.watchdogFires := n.stats.watchdogFires + 1 }) hp hne
  unfold fireWatchdog
  simp only [hdead, hq]
  exact if_neg fun h => h rfl

end Node

namespace Station

variable {α ρ : Type}

/-- How often the watchdog of a station has run out. -/
def fires (s : Station α) : Nat := s.node.stats.watchdogFires

/-- A survivor that hears nothing after the holder `d`: the addresses in `passed` have lost their
place, `p` is presumed to hold the token, and the walk goes on as it did in the table `m` that the
survivors had. -/
structure Waits (s : Station α) (m : Membership) (d : Address) (passed : List Address)
    (p : Address) (s' : Station α) : Prop where
  settings : s'.node.settings = s.node.settings
  listening : s'.node.state = .listening
  deferred : s'.node.deferred = none
  presumed : s'.node.presumedHolder = some p
  other : p ≠ s.node.own
  rounds : s'.node.rounds = s.node.rounds
  fires : s'.fires = s.fires + passed.length
  walk : passed ++ p :: s'.node.table.following p = d :: m.following d
  flags : ∀ x, s'.node.table.isEligible x = (m.isEligible x && decide (x ∉ passed))

variable {s s' s'' : Station α} {m : Membership} {c d p q : Address} {passed rest : List Address}

theorem Waits.own_eq (h : s.Waits m d passed p s') : s'.node.own = s.node.own :=
  congrArg Settings.node h.settings

/-- The table when one address more has lost its place. -/
theorem Waits.flags_mark (h : s.Waits m d passed p s') (x : Address) :
    (s'.node.table.mark p false).isEligible x =
      (m.isEligible x && decide (x ∉ passed ++ [p])) := by
  rw [Membership.isEligible_mark]
  by_cases hx : x = p
  · simp [hx]
  · simp [hx, h.flags x]

/-- As long as somebody is ahead, the walk has a next address. -/
theorem Waits.exists_next (h : s.Waits m d passed p s') {ahead beyond : List Address}
    (hwalk : m.following d = ahead ++ beyond) (hlt : passed.length < ahead.length) :
    ∃ q ∈ ahead, ∃ rest, s'.node.table.following p = q :: rest := by
  have hlist : (passed ++ [p]) ++ s'.node.table.following p = d :: (ahead ++ beyond) := by
    rw [← hwalk, ← h.walk, List.append_assoc]
    rfl
  have hlength : (passed ++ [p]).length = passed.length + 1 := List.length_append
  have hdrop := congrArg (List.drop (passed.length + 1)) hlist
  rw [List.drop_left' hlength, List.drop_succ_cons,
    List.drop_append_of_le_length (Nat.le_of_lt hlt), List.drop_eq_getElem_cons hlt] at hdrop
  exact ⟨_, List.getElem_mem hlt, _, hdrop⟩

/-- When everybody between has been presumed, the walk has come to `c`. -/
theorem Waits.arrives (h : s.Waits m d passed p s') {between beyond : List Address}
    (hwalk : m.following d = between ++ c :: beyond) (hk : passed.length = between.length) :
    passed ++ [p] = d :: between ∧ s'.node.table.following p = c :: beyond := by
  have hlist : (passed ++ [p]) ++ s'.node.table.following p = (d :: between) ++ c :: beyond := by
    rw [List.cons_append, ← hwalk, ← h.walk, List.append_assoc]
    rfl
  refine List.append_inj hlist ?_
  rw [List.length_append, hk]
  rfl

/-- One address later, it is `c` that is presumed to hold the token. -/
theorem Waits.presumes (h : s.Waits m d passed p s') {between beyond : List Address}
    (hwalk : m.following d = between ++ c :: beyond) (hk : passed.length = between.length + 1) :
    p = c := by
  have hlist : passed ++ p :: s'.node.table.following p = (d :: between) ++ c :: beyond := by
    rw [List.cons_append, ← hwalk, ← h.walk]
  exact (List.cons_eq_cons.1 (List.append_inj hlist hk).2).1

variable [Application α]

theorem fires_step [Radio ρ] {radio radio' : ρ} {clock : Readings}
    {events : List Event} (h : s.step radio clock = .ok (s', radio', events)) : s'.fires = s.fires +
      if s.node.state = .listening ∧ s.node.timers.watchdog.elapsed clock.start = true
      then 1 else 0 := by
  obtain ⟨r, hr, -⟩ := step_eq_ok h
  obtain ⟨timers, random, e, a, hn, -⟩ := hr.node_eq
  rw [fires, hn]
  exact (r.watchdogFires_booked _).trans (Node.acts_of_react hr.reacts).watchdogFires_eq

/-! ## Silence -/

/-- What can become of a station that hears nothing, on whatever radios and at whatever times. -/
inductive Silence : Station α → Station α → Prop
  | refl (s : Station α) : Silence s s
  | step {ρ : Type} [Radio ρ] {s s' s'' : Station α} {radio radio' : ρ} {clock : Readings}
      {events : List Event} : Silence s s' → (s'.hear radio clock.start).1 = none →
      s'.step radio clock = .ok (s'', radio', events) → Silence s s''

/-- One step without a message, in which the watchdog runs out. -/
def Expires (s s' : Station α) : Prop :=
  ∃ (ρ : Type) (_ : Radio ρ) (radio radio' : ρ) (clock : Readings) (events : List Event),
    (s.hear radio clock.start).1 = none ∧ s.step radio clock = .ok (s', radio', events) ∧
      s'.fires = s.fires + 1

section Step

variable {clock : Readings} {r : Reaction α} {taken : Bool}

/-- A listener that hears nothing stays as it is while its watchdog runs. -/
theorem Waits.stays (h : s.Waits m d passed p s')
    (hw : ¬s'.node.timers.watchdog.elapsed clock.start = true)
    (hs : s'.Steps clock none r taken s'') : s.Waits m d passed p s'' := by
  have hr : r = { node := s'.node, app := s'.app, transition := .goTo .listening } := by
    have hreact := hs.reacts
    rw [Node.react, h.listening] at hreact
    refine (Except.ok.inj hreact).symm.trans ?_
    rw [Node.listen, if_neg hw, h.deferred]
    rfl
  subst hr
  obtain ⟨timers, random, e, a, hn, -⟩ := hs.node_eq
  have hfires : s''.fires = s'.fires := by
    rw [Station.fires, hn]
    exact Reaction.watchdogFires_booked _ _
  refine ⟨?_, ?_, ?_, ?_, h.other, ?_, hfires.trans h.fires, ?_, ?_⟩
  all_goals rw [hn]
  · exact h.settings
  · rfl
  · exact h.deferred
  · exact h.presumed
  · exact h.rounds
  · exact h.walk
  · exact h.flags

theorem Waits.react_eq (h : s.Waits m d passed p s')
    (hw : s'.node.timers.watchdog.elapsed clock.start = true)
    (hs : s'.Steps clock none r taken s'') : r = s'.node.fireWatchdog s'.app clock.start := by
  have hreact := hs.reacts
  rw [Node.react, h.listening] at hreact
  refine (Except.ok.inj hreact).symm.trans ?_
  rw [Node.listen, if_pos hw]

/-- **An expiry moves a survivor one address on along the walk**, if that is not the survivor. -/
theorem Waits.passesOn (h : s.Waits m d passed p s')
    (hw : s'.node.timers.watchdog.elapsed clock.start = true)
    (hq : s'.node.table.following p = q :: rest) (hqs : q ≠ s.node.own)
    (hs : s'.Steps clock none r taken s'') :
    s.Waits m d (passed ++ [p]) q s'' ∧ s''.node.table = s'.node.table.mark p false := by
  obtain rfl := (h.react_eq hw hs).trans (Node.fireWatchdog_eq_wait h.presumed
    (h.own_eq ▸ h.other) (Membership.successor_of_following hq) (h.own_eq ▸ hqs))
  obtain ⟨timers, random, e, a, hn, -⟩ := hs.node_eq
  have hfires : s''.fires = s'.fires + 1 := by
    rw [Station.fires, hn]
    exact Reaction.watchdogFires_booked _ _
  have htable : s''.node.table = s'.node.table.mark p false := by
    rw [hn]
    rfl
  refine ⟨⟨?_, ?_, ?_, ?_, hqs, ?_, ?_, ?_, ?_⟩, htable⟩
  · rw [hn]
    exact h.settings
  · rw [hn]
    rfl
  · rw [hn]
    exact h.deferred
  · rw [hn]
  · rw [hn]
    exact h.rounds
  · rw [hfires, h.fires, List.length_append]
    rfl
  · rw [htable, Membership.following_mark hq, ← h.walk, hq, List.append_assoc]
    rfl
  · rw [htable]
    exact h.flags_mark

/-- **An expiry makes a survivor claim the token** if the walk comes to it. -/
theorem Waits.claims (h : s.Waits m d passed p s')
    (hw : s'.node.timers.watchdog.elapsed clock.start = true)
    (hq : s'.node.table.following p = s.node.own :: rest)
    (hs : s'.Steps clock none r taken s'') :
    s''.node.state = .speaking ∧ s''.node.rounds = s.node.rounds.claim ∧
      s''.node.table = s'.node.table.mark p false := by
  obtain rfl := (h.react_eq hw hs).trans (Node.fireWatchdog_eq_claim h.presumed
    (h.own_eq ▸ h.other) (h.own_eq ▸ Membership.successor_of_following hq))
  obtain ⟨timers, random, e, a, hn, -⟩ := hs.node_eq
  rw [hn]
  exact ⟨rfl, congrArg Rounds.claim h.rounds, rfl⟩

end Step

/-! ## The walk of a survivor -/

/-- **A survivor waits** until its watchdog has run out once for everybody ahead of it, and at least
that long. -/
theorem waits_of_silence {ahead beyond : List Address} (hstart : s.Waits m d [] d s)
    (hwalk : m.following d = ahead ++ beyond) (hown : s.node.own ∉ ahead) (h : s.Silence s')
    (hk : s'.fires ≤ s.fires + ahead.length) : ∃ passed p, s.Waits m d passed p s' := by
  -- Every expiry is counted, and nothing else moves the walk on: the count tells how far it is.
  induction h with
  | refl => exact ⟨[], d, hstart⟩
  | @step ρ _ s s' s'' radio radio' clock events _ quiet hstep ih =>
    have hfires := fires_step hstep
    obtain ⟨passed, p, hwait⟩ := ih hstart hown (by omega)
    obtain ⟨r, hr, -⟩ := step_eq_ok hstep
    rw [quiet] at hr
    by_cases hw : s'.node.timers.watchdog.elapsed clock.start = true
    · rw [if_pos ⟨hwait.listening, hw⟩] at hfires
      have hlt : passed.length < ahead.length := by
        have := hwait.fires
        omega
      obtain ⟨q, hq, rest, hnext⟩ := hwait.exists_next hwalk hlt
      have hqs : q ≠ s.node.own := fun he => hown (he ▸ hq)
      exact ⟨_, _, (hwait.passesOn hw hnext hqs hr).1⟩
    · exact ⟨_, _, hwait.stays hw hr⟩

/-- How a station `s` of a ring with the table `m` gets over the silence after the holder `d`, when
`c` is the first station that is left. -/
structure Recovers (s : Station α) (m : Membership) (d c : Address) : Prop where
  /-- Nobody claims the token before everybody ahead of `c` has lost its place. -/
  waits : ∀ s', s.Silence s' → s'.fires ≤ s.fires + (m.between d c).length →
    s'.node.state = .listening ∧ s'.node.rounds = s.node.rounds
  /-- Each of these expiries goes on from the presumed holder to the next one. -/
  passesOn : ∀ s' s'', s.Silence s' → s'.Expires s'' →
    s''.fires ≤ s.fires + (m.between d c).length → ∃ p q,
      s'.node.presumedHolder = some p ∧ s'.node.table.successor p = some q ∧
      s''.node.presumedHolder = some q ∧ s''.node.table = s'.node.table.mark p false
  /-- The first station left claims the token with the next expiry. -/
  claims : s.node.own = c → ∀ s' s'', s.Silence s' → s'.Expires s'' →
    s''.fires = s.fires + (m.between d c).length + 1 → s''.node.state = .speaking ∧
      (s.node.rounds.top < lastRound → s''.node.rounds.held.toNat = s.node.rounds.top + 1)
  /-- The others go on waiting, for `c`. -/
  yields : s.node.own ≠ c → ∀ s', s.Silence s' →
    s'.fires = s.fires + (m.between d c).length + 1 → s'.node.state = .listening ∧
      s'.node.rounds = s.node.rounds ∧ s'.node.presumedHolder = some c
  /-- Who has lost its place with the last of these expiries: `d`, and whoever is between. -/
  cleared : ∀ s' s'', s.Silence s' → s'.Expires s'' →
    s''.fires = s.fires + (m.between d c).length + 1 →
      ∀ x, s''.node.table.isEligible x =
        (m.isEligible x && decide (x ≠ d ∧ x ∉ m.between d c))
  /-- All this happens: no step fails, and every step that finds the watchdog run out counts. -/
  expires : ∀ s', s.Silence s' → s'.fires ≤ s.fires + (m.between d c).length →
    ∀ {ρ : Type} [Radio ρ] (radio : ρ) (clock : Readings),
      (s'.hear radio clock.start).1 = none → ∃ s'' radio' events,
        s'.step radio clock = .ok (s'', radio', events) ∧ s''.fires = s'.fires +
          if s'.node.timers.watchdog.elapsed clock.start = true then 1 else 0

theorem Expires.exists_steps (h : s'.Expires s'') :
    ∃ (clock : Readings) (r : Reaction α) (taken : Bool),
      s'.node.timers.watchdog.elapsed clock.start = true ∧ s'.Steps clock none r taken s'' := by
  obtain ⟨ρ, _, radio, radio', clock, events, quiet, hstep, hfires⟩ := h
  have hcount := fires_step hstep
  obtain ⟨r, hr, -⟩ := step_eq_ok hstep
  rw [quiet] at hr
  refine ⟨clock, r, _, ?_, hr⟩
  by_cases hw : s'.node.state = .listening ∧ s'.node.timers.watchdog.elapsed clock.start = true
  · exact hw.2
  · rw [if_neg hw, hfires] at hcount
    exact absurd hcount (Nat.succ_ne_self _)

theorem Expires.fires_eq (h : s'.Expires s'') : s''.fires = s'.fires + 1 := by
  obtain ⟨-, -, -, -, -, -, -, -, hfires⟩ := h
  exact hfires

/-- Before the last of the expiries, everybody ahead of `c` has been presumed. -/
theorem waits_of_last_expiry {beyond : List Address} (hstart : s.Waits m d [] d s)
    (hwalk : m.following d = m.between d c ++ c :: beyond) (hown : s.node.own ∉ m.between d c)
    (h : s.Silence s') (he : s'.Expires s'')
    (hk : s''.fires = s.fires + (m.between d c).length + 1) :
    ∃ passed p, s.Waits m d passed p s' ∧ passed ++ [p] = d :: m.between d c ∧
      s'.node.table.following p = c :: beyond := by
  have hcount := he.fires_eq
  obtain ⟨passed, p, hwait⟩ := waits_of_silence hstart hwalk hown h (by omega)
  have hlength : passed.length = (m.between d c).length := by
    have := hwait.fires
    omega
  exact ⟨passed, p, hwait, hwait.arrives hwalk hlength⟩

/-- **A survivor recovers**: what it does depends on the walk alone. -/
theorem recovers {beyond : List Address} (hstart : s.Waits m d [] d s)
    (hwalk : m.following d = m.between d c ++ c :: beyond) (hown : s.node.own ∉ m.between d c) :
    s.Recovers m d c where
  waits s' h hk := by
    obtain ⟨passed, p, hwait⟩ := waits_of_silence hstart hwalk hown h hk
    exact ⟨hwait.listening, hwait.rounds⟩
  passesOn s' s'' h he hk := by
    have hcount := he.fires_eq
    obtain ⟨passed, p, hwait⟩ := waits_of_silence hstart hwalk hown h (by omega)
    obtain ⟨clock, r, taken, hw, hr⟩ := he.exists_steps
    have hlt : passed.length < (m.between d c).length := by
      have := hwait.fires
      omega
    obtain ⟨q, hq, rest, hnext⟩ := hwait.exists_next hwalk hlt
    have hqs : q ≠ s.node.own := fun he => hown (he ▸ hq)
    obtain ⟨hnew, htable⟩ := hwait.passesOn hw hnext hqs hr
    exact ⟨p, q, hwait.presumed, Membership.successor_of_following hnext, hnew.presumed, htable⟩
  claims hc s' s'' h he hk := by
    obtain ⟨passed, p, hwait, -, hnext⟩ := waits_of_last_expiry hstart hwalk hown h he hk
    obtain ⟨clock, r, taken, hw, hr⟩ := he.exists_steps
    obtain ⟨hspeaks, hrounds, -⟩ := hwait.claims hw (hc ▸ hnext) hr
    refine ⟨hspeaks, fun htop => ?_⟩
    rw [hrounds, Rounds.held_claim, Rounds.toNat_next htop]
  yields hc s' h hk := by
    -- For the others, `c` is one more address to be passed.
    have hahead : m.following d = (m.between d c ++ [c]) ++ beyond := by
      rw [hwalk, List.append_assoc]
      rfl
    have hnot : s.node.own ∉ m.between d c ++ [c] := fun hm =>
      (List.mem_append.1 hm).elim hown fun hm => hc (List.mem_singleton.1 hm)
    obtain ⟨passed, p, hwait⟩ := waits_of_silence hstart hahead hnot h
      (by rw [List.length_append, hk]; exact Nat.le_refl _)
    obtain rfl := hwait.presumes hwalk (by have := hwait.fires; omega)
    exact ⟨hwait.listening, hwait.rounds, hwait.presumed⟩
  cleared s' s'' h he hk x := by
    obtain ⟨passed, p, hwait, hpassed, hnext⟩ := waits_of_last_expiry hstart hwalk hown h he hk
    obtain ⟨clock, r, taken, hw, hr⟩ := he.exists_steps
    have htable : s''.node.table = s'.node.table.mark p false := by
      by_cases hc : c = s.node.own
      · exact (hwait.claims hw (hc ▸ hnext) hr).2.2
      · exact (hwait.passesOn hw hnext hc hr).2
    rw [htable, hwait.flags_mark, hpassed]
    simp only [List.mem_cons, not_or, ne_eq]
  expires s' h hk _ _ radio clock quiet := by
    obtain ⟨passed, p, hwait⟩ := waits_of_silence hstart hwalk hown h hk
    have hstate := hwait.listening
    obtain ⟨⟨s'', radio', events⟩, hstep⟩ := exists_step_of_state (s := s') (by rw [hstate]; nofun)
      (by rw [hstate]; nofun) (by rw [hstate]; nofun) (by rw [hstate]; nofun) radio clock
    refine ⟨s'', radio', events, hstep, ?_⟩
    rw [fires_step hstep]
    simp only [hwait.listening, true_and]

end Station

/-- The stations of `S` listen with the same table `m`, all of them have their place in it, and all
take `d`, who is not among them, for the holder. -/
structure Survivors {α : Type} (S : List (Station α)) (m : Membership) (d : Address) : Prop where
  listening : ∀ s ∈ S, s.node.state = .listening
  table : ∀ s ∈ S, s.node.table = m
  eligible : ∀ s ∈ S, m.isEligible s.node.own = true
  presumed : ∀ s ∈ S, s.node.presumedHolder = some d
  gone : ∀ s ∈ S, s.node.own ≠ d
  deferred : ∀ s ∈ S, s.node.deferred = none

variable {α : Type} {S : List (Station α)} {m : Membership} {d : Address}

theorem Survivors.waits (h : Survivors S m d) {s : Station α} (hs : s ∈ S) :
    s.Waits m d [] d s where
  settings := rfl
  listening := h.listening s hs
  deferred := h.deferred s hs
  presumed := h.presumed s hs
  other := (h.gone s hs).symm
  rounds := rfl
  fires := rfl
  walk := by rw [h.table s hs]; rfl
  flags x := by rw [h.table s hs]; simp

/-- Some station is the first one after `d`. -/
theorem exists_first (d : Address) (hne : S ≠ []) :
    ∃ first ∈ S, ∀ s ∈ S, d.gap first.node.own ≤ d.gap s.node.own := by
  induction S with
  | nil => exact absurd rfl hne
  | cons s rest ih =>
    by_cases hrest : rest = []
    · refine ⟨s, List.mem_cons_self, fun s' hs' => ?_⟩
      rw [hrest, List.mem_singleton] at hs'
      exact Nat.le_of_eq (by rw [hs'])
    · obtain ⟨first, hfirst, hle⟩ := ih hrest
      rcases Nat.le_total (d.gap s.node.own) (d.gap first.node.own) with h | h
      · refine ⟨s, List.mem_cons_self, fun s' hs' => ?_⟩
        rcases List.mem_cons.1 hs' with rfl | hs'
        · exact Nat.le_refl _
        · exact Nat.le_trans h (hle s' hs')
      · refine ⟨first, List.mem_cons_of_mem _ hfirst, fun s' hs' => ?_⟩
        rcases List.mem_cons.1 hs' with rfl | hs'
        · exact h
        · exact hle s' hs'

/-- **A ring that falls silent gets exactly one new holder**, the first of its survivors after the
lost one, whenever their watchdogs run out. -/
theorem one_claimant [Application α] (h : Survivors S m d) (hne : S ≠ []) :
    ∃ first ∈ S, (∀ s ∈ S, d.gap first.node.own ≤ d.gap s.node.own) ∧
      ∀ s ∈ S, s.Recovers m d first.node.own := by
  obtain ⟨first, hfirst, hle⟩ := exists_first d hne
  obtain ⟨beyond, hwalk⟩ :=
    Membership.exists_following_eq (h.eligible first hfirst) (h.gone first hfirst)
  refine ⟨first, hfirst, hle, fun s hs => Station.recovers (h.waits hs) hwalk fun hm => ?_⟩
  exact Nat.not_lt_of_le (hle s hs) (Membership.mem_between.1 hm).2.2

/-- A station that listens in a ring of the nodes 1, 2, 3 and 4, and takes node 1 for the holder. -/
def survivor (own : Address) : Station Beacon where
  node :=
    { settings := { node := own, roster := [⟨1⟩, ⟨2⟩, ⟨3⟩, ⟨4⟩] }
      table := .ofKeys [⟨1⟩, ⟨2⟩, ⟨3⟩, ⟨4⟩] true
      state := .listening
      presumedHolder := some ⟨1⟩
      random := .ofSeed 0 }
  app := { own }

/-- If node 1 falls silent and node 2 is lost with it, one expiry passes node 2; with the next one
node 3 takes the token, and node 4 waits for it. -/
theorem one_claimant_of_four :
    Membership.between (.ofKeys [⟨1⟩, ⟨2⟩, ⟨3⟩, ⟨4⟩] true) ⟨1⟩ ⟨3⟩ = [⟨2⟩] ∧
      (survivor ⟨3⟩).Recovers (.ofKeys [⟨1⟩, ⟨2⟩, ⟨3⟩, ⟨4⟩] true) ⟨1⟩ ⟨3⟩ ∧
      (survivor ⟨4⟩).Recovers (.ofKeys [⟨1⟩, ⟨2⟩, ⟨3⟩, ⟨4⟩] true) ⟨1⟩ ⟨3⟩ := by
  have each : ∀ {P : Station Beacon → Prop}, P (survivor ⟨3⟩) → P (survivor ⟨4⟩) →
      ∀ s ∈ [survivor ⟨3⟩, survivor ⟨4⟩], P s := fun h₃ h₄ =>
    List.forall_mem_cons.2 ⟨h₃, List.forall_mem_singleton.2 h₄⟩
  obtain ⟨first, hfirst, hle, hrec⟩ :=
    one_claimant (S := [survivor ⟨3⟩, survivor ⟨4⟩])
      (m := .ofKeys [⟨1⟩, ⟨2⟩, ⟨3⟩, ⟨4⟩] true) (d := ⟨1⟩)
      ⟨each rfl rfl, each rfl rfl, each (by decide) (by decide), each rfl rfl,
        each (by decide) (by decide), each rfl rfl⟩ nofun
  have hown : first.node.own = ⟨3⟩ := by
    rcases List.mem_cons.1 hfirst with rfl | hlast
    · rfl
    · rw [List.mem_singleton.1 hlast] at hle
      exact absurd (hle _ List.mem_cons_self) (by decide)
  rw [hown] at hrec
  exact ⟨by decide, hrec _ List.mem_cons_self,
    hrec _ (List.mem_cons_of_mem _ List.mem_cons_self)⟩

end RadioRing
