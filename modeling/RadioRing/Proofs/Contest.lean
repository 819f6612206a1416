import RadioRing.Proofs.Reachable

/-!
# Proofs/Contest — which of several holders keeps the token

A token is better than another one if its round is higher, or if the rounds are equal and its holder
has the lower address (`Station.Beats`).  A holder that hears the payload of a better one gives its
turn up, and **no payload brings it back** (`OutOfTurn.step`), so of all holders that hear one
another exactly the best is left (`one_holder_remains`).
-/

namespace RadioRing

namespace Node

/-- The deadlines that end a turn or a silence have not been reached. -/
structure Unhurried (n : Node) (now : Timestamp) : Prop where
  turn : n.state = .awaitingEcho → n.timers.turn.elapsed now = false
  retry : n.state = .awaitingEcho → n.timers.retry.elapsed now = false
  watchdog : n.state = .listening → n.timers.watchdog.elapsed now = false

end Node

namespace Station

variable {α : Type}

/-- The token of `s` is better than that of `t`. -/
def Beats (s t : Station α) : Prop :=
  t.node.rounds.held < s.node.rounds.held ∨
    s.node.rounds.held = t.node.rounds.held ∧ s.node.own < t.node.own

theorem outranked_eq_true_iff {s t : Station α} :
    t.node.outranked s.node.rounds.held s.node.own = true ↔ s.Beats t :=
  Node.outranked_iff

theorem Beats.asymm {s t : Station α} (h : s.Beats t) : ¬t.Beats s := by
  unfold Beats at *
  simp only [UInt32.lt_iff_toNat_lt, Address.lt_iff, ← UInt32.toNat_inj] at *
  omega

theorem Beats.trans {s t u : Station α} (h : s.Beats t) (h' : t.Beats u) : s.Beats u := by
  unfold Beats at *
  simp only [UInt32.lt_iff_toNat_lt, Address.lt_iff, ← UInt32.toNat_inj] at *
  omega

theorem beats_or_beats {s t : Station α} (h : s.node.own ≠ t.node.own) :
    s.Beats t ∨ t.Beats s := by
  have := Address.toNat_ne h
  unfold Beats
  simp only [UInt32.lt_iff_toNat_lt, Address.lt_iff, ← UInt32.toNat_inj]
  omega

/-- A station without a turn, whose next turn no payload will start. -/
structure OutOfTurn (s : Station α) : Prop where
  state : s.node.state = .listening ∨ ∃ holder echo, s.node.state = .acknowledging holder echo
  master : s.node.master = false
  deferred : ∀ m ∈ s.node.deferred, ∃ round, m.Carries round

theorem OutOfTurn.isHolding {s : Station α} (h : s.OutOfTurn) : s.node.state.isHolding = false := by
  rcases h.state with hs | ⟨holder, echo, hs⟩ <;> rw [hs] <;> rfl

variable [Application α]

/-- What can become of a station that hears the messages `ms`, in this order, on whatever radios and
at whatever times as long as no turn and no silence comes to its end. -/
inductive Hears : Station α → List Inbound → Station α → Prop
  | refl (s : Station α) : Hears s [] s
  | step {ρ : Type} [Radio ρ] {s s' s'' : Station α} {ms : List Inbound} {radio radio' : ρ}
      {clock : Readings} {events : List Event} : Hears s ms s' → s'.node.Unhurried clock.start →
      s'.step radio clock = .ok (s'', radio', events) →
      Hears s (ms ++ (s'.hear radio clock.start).1.toList) s''

/-- The holder `s` still holds the token after it has heard `ms`. -/
structure Keeps (s : Station α) (ms : List Inbound) (s' : Station α) : Prop where
  settings : s'.node.settings = s.node.settings
  state : s'.node.state = .awaitingEcho
  master : s'.node.master = s.node.master
  held : s'.node.rounds.held = s.node.rounds.held
  yielded : s'.node.stats.tokensYielded = s.node.stats.tokensYielded
  eligible : ∀ a, s.node.table.isEligible a = true → s'.node.table.isEligible a = true
  unbeaten : ∀ m ∈ ms, ∀ round, m.Carries round → ¬s.node.outranked round m.sender = true

/-- The holder `s` has given its turn up after it has heard `ms`. -/
structure Yields (s : Station α) (ms : List Inbound) (s' : Station α) : Prop where
  outOfTurn : s'.OutOfTurn
  yielded : s'.node.stats.tokensYielded = s.node.stats.tokensYielded + 1
  beaten : ∃ m ∈ ms, ∃ round, m.Carries round ∧ s.node.outranked round m.sender = true

section Step

variable {s s' s'' : Station α} {ms : List Inbound} {clock : Readings} {heard : Option Inbound}
  {r : Reaction α} {taken : Bool}

/-- A reaction that leaves a station without a turn. -/
theorem Steps.outOfTurn (hs : s'.Steps clock heard r taken s'')
    (state : r.transition.next = .listening ∨
      ∃ holder echo, r.transition.next = .acknowledging holder echo)
    (master : r.node.master = false)
    (deferred : ∀ m ∈ r.node.deferred, ∃ round, m.Carries round) : s''.OutOfTurn := by
  obtain ⟨timers, random, e, a, hn, -⟩ := hs.node_eq
  refine ⟨?_, ?_, ?_⟩ <;> rw [hn]
  · exact state
  · exact master
  · exact deferred

/-- **A station that has no turn gets none from payloads**, and its counter of yielded tokens stands
still. -/
theorem OutOfTurn.step (h : s'.OutOfTurn) (hcalm : s'.node.Unhurried clock.start)
    (hm : ∀ m ∈ heard, ∃ round, m.Carries round) (hs : s'.Steps clock heard r taken s'') :
    s''.OutOfTurn ∧ s''.node.stats.tokensYielded = s'.node.stats.tokensYielded := by
  have hreact := hs.reacts
  rcases h.state with hstate | ⟨holder, echo, hstate⟩
  · rw [Node.react, hstate] at hreact
    obtain rfl := Except.ok.inj hreact
    rw [Node.listen_eq _ _ (hcalm.watchdog hstate)] at hs
    cases hheard : s'.node.deferred.or heard with
    | none =>
      rw [hheard] at hs
      exact ⟨hs.outOfTurn (Or.inl rfl) h.master h.deferred, hs.tokensYielded_eq⟩
    | some m =>
      rw [hheard] at hs
      obtain ⟨round, hcarries⟩ : ∃ round, m.Carries round := by
        rcases Option.or_eq_some_iff.1 hheard with hd | ⟨-, hh⟩
        · exact h.deferred m hd
        · exact hm m hh
      obtain ⟨delivered, app', before, hr⟩ :=
        (s'.node.awake clock.heard).hearAsListener_carries s'.app hcarries
      dsimp only at hs
      rw [hr] at hs
      exact ⟨hs.outOfTurn (Or.inr ⟨_, _, rfl⟩) h.master nofun, hs.tokensYielded_eq⟩
  · rw [Node.react, hstate] at hreact
    obtain rfl := Except.ok.inj hreact
    unfold Node.acknowledge at hs
    split at hs
    · cases heard with
      | none =>
        exact ⟨hs.outOfTurn (Or.inr ⟨_, _, rfl⟩) h.master h.deferred, hs.tokensYielded_eq⟩
      | some m =>
        obtain ⟨deferred, dropped, hput, hdeferred⟩ := s'.node.fst_putAside m
        dsimp only at hs
        rw [hput] at hs
        refine ⟨hs.outOfTurn (Or.inr ⟨_, _, rfl⟩) h.master ?_, hs.tokensYielded_eq⟩
        rcases hdeferred with rfl | rfl
        · exact h.deferred
        · exact hm
    · exact ⟨hs.outOfTurn (Or.inl rfl) h.master h.deferred, hs.tokensYielded_eq⟩

/-- A holder that stays where it is has heard no better token. -/
theorem Keeps.stays (h : s.Keeps ms s') (hs : s'.Steps clock heard
      { node := s'.node, app := s'.app, transition := .goTo .awaitingEcho } taken s'')
    (hm : ∀ m ∈ heard, ∀ round, m.Carries round → ¬s.node.outranked round m.sender = true) :
    s.Keeps (ms ++ heard.toList) s'' := by
  obtain ⟨timers, random, e, a, hn, -⟩ := hs.node_eq
  refine ⟨?_, ?_, ?_, ?_, hs.tokensYielded_eq.trans h.yielded, ?_, fun m hms round hround => ?_⟩
  · rw [hn]
    exact h.settings
  · rw [hn]
    rfl
  · rw [hn]
    exact h.master
  · rw [hn]
    exact h.held
  · rw [hn]
    exact h.eligible
  · rcases List.mem_append.1 hms with hms | hms
    · exact h.unbeaten m hms round hround
    · exact hm m (Option.mem_toList.1 hms) round hround

/-- **A holder goes on holding until it hears a better token.** -/
theorem Keeps.step (h : s.Keeps ms s') (hcalm : s'.node.Unhurried clock.start)
    (hm : ∀ m ∈ heard, (∃ round, m.Carries round) ∧ s.node.table.isEligible m.sender = true)
    (hs : s'.Steps clock heard r taken s'') :
    s.Keeps (ms ++ heard.toList) s'' ∨ s.Yields (ms ++ heard.toList) s'' := by
  have hreact := hs.reacts
  rw [Node.react, h.state] at hreact
  obtain rfl := Except.ok.inj hreact
  unfold Node.awaitEcho at hs
  rw [hcalm.turn h.state, hcalm.retry h.state] at hs
  cases heard with
  | none => exact Or.inl (h.stays hs nofun)
  | some m =>
    obtain ⟨⟨round, hcarries⟩, he⟩ := hm m rfl
    have hsame : s'.node.outranked round m.sender = s.node.outranked round m.sender := by
      unfold Node.outranked Node.own
      rw [h.held, h.settings]
    have hs : s'.Steps clock (some m) (s'.node.hearAsHolder s'.app m) taken s'' := hs
    rw [Node.hearAsHolder_carries s'.app hcarries (h.eligible _ he), hsame] at hs
    by_cases hout : s.node.outranked round m.sender = true
    · rw [if_pos hout] at hs
      refine Or.inr ⟨hs.outOfTurn (Or.inl rfl) rfl fun m' hm' => ?_, ?_, m, ?_, round, hcarries,
        hout⟩
      · exact ⟨round, Option.some.inj hm' ▸ hcarries⟩
      · exact hs.tokensYielded_eq.trans (congrArg (· + 1) h.yielded)
      · exact List.mem_append_right _ List.mem_cons_self
    · rw [if_neg hout] at hs
      refine Or.inl (h.stays hs fun m' hm' round' hround' => ?_)
      obtain rfl := Option.some.inj hm'
      rwa [hround'.round_eq hcarries]

end Step

/-! ## The whole run -/

variable {s s' s'' : Station α} {ms ms' : List Inbound}

/-- **Hearing payloads, a holder keeps its token or gives it up**, and which of the two depends only
on whether it has heard a better one. -/
theorem keeps_or_yields (hs : s.node.state = .awaitingEcho) (h : s.Hears ms s')
    (hm : ∀ m ∈ ms, (∃ round, m.Carries round) ∧ s.node.table.isEligible m.sender = true) :
    s.Keeps ms s' ∨ s.Yields ms s' := by
  induction h with
  | refl s => exact Or.inl ⟨rfl, hs, rfl, rfl, rfl, fun _ h => h, nofun⟩
  | @step ρ _ s s' s'' ms radio radio' clock events _ hcalm hstep ih =>
    obtain ⟨r, hr, -⟩ := step_eq_ok hstep
    have hlast : ∀ m ∈ (s'.hear radio clock.start).1,
        (∃ round, m.Carries round) ∧ s.node.table.isEligible m.sender = true := fun m hh =>
      hm m (List.mem_append_right _ (Option.mem_toList.2 hh))
    rcases ih hs fun m hms => hm m (List.mem_append_left _ hms) with hkeeps | hyields
    · exact hkeeps.step hcalm hlast hr
    · -- What has been given up is counted once, since nothing that is heard brings the turn back.
      obtain ⟨hout, hcount⟩ := hyields.outOfTurn.step hcalm (fun m hh => (hlast m hh).1) hr
      obtain ⟨m, hms, hbeaten⟩ := hyields.beaten
      exact Or.inr ⟨hout, hcount.trans hyields.yielded, m, List.mem_append_left _ hms, hbeaten⟩

/-- **No run of payloads brings a turn back.** -/
theorem OutOfTurn.hears (hs : s.OutOfTurn) (h : s.Hears ms s')
    (hm : ∀ m ∈ ms, ∃ round, m.Carries round) : s'.OutOfTurn := by
  induction h with
  | refl => exact hs
  | @step ρ _ s s' s'' ms radio radio' clock events _ hcalm hstep ih =>
    obtain ⟨r, hr, -⟩ := step_eq_ok hstep
    refine ((ih hs fun m hms => hm m (List.mem_append_left _ hms)).step hcalm ?_ hr).1
    exact fun m hh => hm m (List.mem_append_right _ (Option.mem_toList.2 hh))

end Station

variable {α : Type} {ids : List Address} {before after : Address → Station α}
  {heard : Address → List Inbound}

/-- Among several holders there is a best one. -/
theorem exists_best (named : ∀ a ∈ ids, (before a).node.own = a) (hne : ids ≠ []) :
    ∃ w ∈ ids, ∀ a ∈ ids, a ≠ w → (before w).Beats (before a) := by
  -- The best of the others is compared with the first; of two different nodes one beats the other.
  induction ids with
  | nil => exact absurd rfl hne
  | cons b rest ih =>
    by_cases hrest : rest = []
    · refine ⟨b, List.mem_cons_self, fun a ha hab => ?_⟩
      rw [hrest] at ha
      exact absurd (List.mem_singleton.1 ha) hab
    · have hnamed := named b List.mem_cons_self
      obtain ⟨w, hw, hbest⟩ := ih (fun a ha => named a (List.mem_cons_of_mem _ ha)) hrest
      by_cases hbw : b = w
      · refine ⟨w, List.mem_cons_of_mem _ hw, fun a ha haw => ?_⟩
        rcases List.mem_cons.1 ha with rfl | ha
        · exact absurd hbw haw
        · exact hbest a ha haw
      · have hne : (before b).node.own ≠ (before w).node.own := by
          rw [hnamed, named w (List.mem_cons_of_mem _ hw)]
          exact hbw
        rcases Station.beats_or_beats hne with hb | hb
        · refine ⟨b, List.mem_cons_self, fun a ha hab => ?_⟩
          have ha := (List.mem_cons.1 ha).resolve_left hab
          by_cases haw : a = w
          · exact haw ▸ hb
          · exact hb.trans (hbest a ha haw)
        · refine ⟨w, List.mem_cons_of_mem _ hw, fun a ha haw => ?_⟩
          rcases List.mem_cons.1 ha with rfl | ha
          · exact hb
          · exact hbest a ha haw

variable [Application α]

/-- Every node of `ids` waits for its echo, and all of them have their place in the ring. -/
structure Contest (ids : List Address) (before : Address → Station α) : Prop where
  reachable : ∀ a ∈ ids, (before a).Reachable
  named : ∀ a ∈ ids, (before a).node.own = a
  waiting : ∀ a ∈ ids, (before a).node.state = .awaitingEcho
  eligible : ∀ a ∈ ids, ∀ b ∈ ids, b ≠ a → (before a).node.table.isEligible b = true

/-- For node `a`, the message is a payload of another one of `ids`, with the round that its sender
held before. -/
structure Rival (ids : List Address) (before : Address → Station α) (a : Address) (m : Inbound) :
    Prop where
  sender : m.sender ∈ ids
  foreign : m.sender ≠ a
  carries : m.Carries (before m.sender).node.rounds.held

namespace Contest

variable {a : Address} {ms : List Inbound} {s : Station α}

/-- What a node of a contest hears has the effect that payloads of eligible senders have. -/
theorem keeps_or_yields (h : Contest ids before) (ha : a ∈ ids) (hr : (before a).Hears ms s)
    (hm : ∀ m ∈ ms, Rival ids before a m) : (before a).Keeps ms s ∨ (before a).Yields ms s :=
  Station.keeps_or_yields (h.waiting a ha) hr fun m hms =>
    ⟨⟨_, (hm m hms).carries⟩, h.eligible a ha _ (hm m hms).sender (hm m hms).foreign⟩

/-- The token that a rival tells of is better than that of `a` exactly if its holder beats `a`. -/
theorem outranked_iff (h : Contest ids before) {m : Inbound} (hm : Rival ids before a m)
    {round : UInt32} (hround : m.Carries round) :
    (before a).node.outranked round m.sender = true ↔ (before m.sender).Beats (before a) := by
  rw [← Station.outranked_eq_true_iff, h.named _ hm.sender, hround.round_eq hm.carries]

/-- **The best holder keeps its token**: whoever beat it would be better than it. -/
theorem best_keeps (h : Contest ids before) {w : Address} (hw : w ∈ ids)
    (hbest : ∀ a ∈ ids, a ≠ w → (before w).Beats (before a)) (hr : (before w).Hears ms s)
    (hm : ∀ m ∈ ms, Rival ids before w m) : (before w).Keeps ms s := by
  refine (h.keeps_or_yields hw hr hm).resolve_right fun hy => ?_
  obtain ⟨m, hms, round, hcarries, hout⟩ := hy.beaten
  have hrival := hm m hms
  exact ((h.outranked_iff hrival hcarries).1 hout).asymm (hbest _ hrival.sender hrival.foreign)

/-- **A holder that hears a better one yields.** -/
theorem yields (h : Contest ids before) (ha : a ∈ ids) (hr : (before a).Hears ms s)
    (hm : ∀ m ∈ ms, Rival ids before a m)
    (hbeaten : ∃ m ∈ ms, (before m.sender).Beats (before a)) : (before a).Yields ms s := by
  refine (h.keeps_or_yields ha hr hm).resolve_left fun hk => ?_
  obtain ⟨m, hms, hbeats⟩ := hbeaten
  have hcarries := (hm m hms).carries
  exact hk.unbeaten m hms _ hcarries ((h.outranked_iff (hm m hms) hcarries).2 hbeats)

/-- **Whoever has given its turn up stays without one.** -/
theorem stays_out (h : Contest ids before) (ha : a ∈ ids) {ms' : List Inbound} {s' : Station α}
    (hr : (before a).Hears ms s) (hr' : s.Hears ms' s')
    (hm : ∀ m ∈ ms ++ ms', Rival ids before a m) (hs : s.node.state.isHolding = false) :
    s'.node.state.isHolding = false ∧ s'.node.master = false := by
  have hout : s.OutOfTurn := by
    rcases h.keeps_or_yields ha hr fun m hms => hm m (List.mem_append_left _ hms) with hk | hy
    · rw [hk.state] at hs
      exact absurd hs nofun
    · exact hy.outOfTurn
  have hout' := hout.hears hr' fun m hms => ⟨_, (hm m (List.mem_append_right _ hms)).carries⟩
  exact ⟨hout'.isHolding, hout'.master⟩

/-- No step of a node of the contest fails. -/
theorem exists_step (h : Contest ids before) (ha : a ∈ ids) (hr : (before a).Hears ms s)
    (hm : ∀ m ∈ ms, Rival ids before a m) {ρ : Type} [Radio ρ] (radio : ρ) (clock : Readings) :
    ∃ p, s.step radio clock = .ok p := by
  have hstate : s.node.state = .awaitingEcho ∨ s.node.state = .listening ∨
      ∃ holder echo, s.node.state = .acknowledging holder echo := by
    rcases h.keeps_or_yields ha hr hm with hk | hy
    · exact Or.inl hk.state
    · exact Or.inr hy.outOfTurn.state
  refine Station.exists_step_of_state ?_ ?_ ?_ ?_ radio clock <;>
    rcases hstate with h | h | ⟨holder, echo, h⟩ <;> rw [h] <;> nofun

end Contest

/-- **Of several holders that hear one another exactly one is left**: the one with the highest
round, and among equal ones that with the lowest address.  Each of the others has given its turn up
once and for all, and no step of any of them fails. -/
theorem one_holder_remains (contest : Contest ids before) (hne : ids ≠ [])
    (runs : ∀ a ∈ ids, (before a).Hears (heard a) (after a))
    (rivals : ∀ a ∈ ids, ∀ m ∈ heard a, Rival ids before a m)
    (complete : ∀ a ∈ ids, ∀ b ∈ ids, b ≠ a → ∃ m ∈ heard a, m.sender = b) :
    (∃ w ∈ ids, (∀ a ∈ ids, a ≠ w → (before w).Beats (before a)) ∧
      (after w).node.state.isHolding = true ∧ (after w).node.master = true ∧
      ∀ a ∈ ids, a ≠ w → (after a).node.state.isHolding = false ∧
        (after a).node.master = false ∧
        (after a).node.stats.tokensYielded = (before a).node.stats.tokensYielded + 1) ∧
    (∀ a ∈ ids, ∀ ms ms' s s', (before a).Hears ms s → s.Hears ms' s' →
      (∀ m ∈ ms ++ ms', Rival ids before a m) → s.node.state.isHolding = false →
        s'.node.state.isHolding = false ∧ s'.node.master = false) ∧
    ∀ a ∈ ids, ∀ ms s, (before a).Hears ms s → (∀ m ∈ ms, Rival ids before a m) →
      ∀ {ρ : Type} [Radio ρ] (radio : ρ) (clock : Readings), ∃ p, s.step radio clock = .ok p := by
  refine ⟨?_, fun a ha ms ms' s s' hr hr' hm hs => contest.stays_out ha hr hr' hm hs,
    fun a ha ms s hr hm ρ _ radio clock => contest.exists_step ha hr hm radio clock⟩
  obtain ⟨w, hw, hbest⟩ := exists_best contest.named hne
  have hkeeps := contest.best_keeps hw hbest (runs w hw) (rivals w hw)
  have hmaster : (before w).node.master = true := by
    rw [(Station.sound_of_reachable (contest.reachable w hw)).master, contest.waiting w hw]
    rfl
  refine ⟨w, hw, hbest, by rw [hkeeps.state]; rfl, hkeeps.master.trans hmaster,
    fun a ha haw => ?_⟩
  obtain ⟨m, hm, rfl⟩ := complete a ha w hw (Ne.symm haw)
  have hyields := contest.yields ha (runs a ha) (rivals a ha) ⟨m, hm, hbest a ha haw⟩
  exact ⟨hyields.outOfTurn.isHolding, hyields.outOfTurn.master, hyields.yielded⟩

theorem isSome_rivalOfTwo (a : Address) :
    (Station.holder? (if a = ⟨1⟩ then ⟨1⟩ else ⟨2⟩) ⟨3⟩ 5 [⟨1⟩, ⟨2⟩, ⟨3⟩]).isSome = true := by
  split <;> decide

/-- Two holders of tokens of round 6, at the nodes 1 and 2. -/
def rivalOfTwo (a : Address) : Station Beacon :=
  (Station.holder? (if a = ⟨1⟩ then ⟨1⟩ else ⟨2⟩) ⟨3⟩ 5 [⟨1⟩, ⟨2⟩, ⟨3⟩]).get (isSome_rivalOfTwo a)

theorem reachable_rivalOfTwo (a : Address) : (rivalOfTwo a).Reachable :=
  Station.reachable_of_holder? (Option.some_get _).symm

/-- The radio of node `a` when the other one of the two sends its payload. -/
def radioOfTwo (a : Address) : ScriptedRadio :=
  let other : Address := if a = ⟨1⟩ then ⟨2⟩ else ⟨1⟩
  { inbox := [⟨some other, .everyone, (Message.data 6 [other.byte, 0, 0]).encode⟩] }

/-- Either of the two when it has heard the other one. -/
def outcomeOfTwo (a : Address) : Station Beacon :=
  match (rivalOfTwo a).step (radioOfTwo a) (.still .zero) with
  | .ok p => p.1
  | .error _ => rivalOfTwo a

/-- Of two holders of tokens of one round, node 1 keeps its token and node 2 yields. -/
theorem one_holder_remains_of_two :
    (outcomeOfTwo ⟨1⟩).node.state.isHolding = true ∧
      (outcomeOfTwo ⟨2⟩).node.state.isHolding = false := by
  have each : ∀ {P : Address → Prop}, P ⟨1⟩ → P ⟨2⟩ → ∀ a ∈ ([⟨1⟩, ⟨2⟩] : List Address), P a :=
    fun h₁ h₂ => List.forall_mem_cons.2 ⟨h₁, List.forall_mem_singleton.2 h₂⟩
  have contest : Contest [⟨1⟩, ⟨2⟩] rivalOfTwo :=
    ⟨each (reachable_rivalOfTwo _) (reachable_rivalOfTwo _),
      each (by decide) (by decide), each (by decide) (by decide), by decide⟩
  let heard (a : Address) := ((rivalOfTwo a).hear (radioOfTwo a) .zero).1.toList
  have runs : ∀ a ∈ ([⟨1⟩, ⟨2⟩] : List Address),
      (rivalOfTwo a).Hears (heard a) (outcomeOfTwo a) := by
    have run : ∀ a, (rivalOfTwo a).node.Unhurried .zero →
        ((rivalOfTwo a).step (radioOfTwo a) (.still .zero)).isOk = true →
        (rivalOfTwo a).Hears (heard a) (outcomeOfTwo a) := by
      intro a hcalm hok
      unfold outcomeOfTwo
      cases h : (rivalOfTwo a).step (radioOfTwo a) (.still .zero) with
      | error e => rw [h] at hok; exact absurd hok nofun
      | ok p => exact (Station.Hears.refl _).step hcalm h
    exact each (run _ ⟨by decide, by decide, by decide⟩ (by decide))
      (run _ ⟨by decide, by decide, by decide⟩ (by decide))
  have hheard : heard ⟨1⟩ = [⟨⟨2⟩, .everyone, .data 6 [2, 0, 0],
        (Message.data 6 [2, 0, 0]).encode⟩] ∧
      heard ⟨2⟩ = [⟨⟨1⟩, .everyone, .data 6 [1, 0, 0], (Message.data 6 [1, 0, 0]).encode⟩] := by
    decide
  have rivals : ∀ a ∈ ([⟨1⟩, ⟨2⟩] : List Address), ∀ m ∈ heard a,
      Rival [⟨1⟩, ⟨2⟩] rivalOfTwo a m := by
    refine each ?_ ?_
    · rw [hheard.1]
      exact List.forall_mem_singleton.2 ⟨by decide, by decide, [2, 0, 0], by decide⟩
    · rw [hheard.2]
      exact List.forall_mem_singleton.2 ⟨by decide, by decide, [1, 0, 0], by decide⟩
  obtain ⟨⟨w, hw, hbest, hholds, -, hothers⟩, -⟩ :=
    one_holder_remains contest nofun runs rivals (by decide)
  have hfirst : w = ⟨1⟩ := by
    rcases List.mem_cons.1 hw with rfl | hlast
    · rfl
    · obtain rfl := List.mem_singleton.1 hlast
      exact absurd (hbest ⟨1⟩ List.mem_cons_self (by decide)) (by unfold Station.Beats; decide)
  subst hfirst
  exact ⟨hholds, (hothers ⟨2⟩ (by decide) (by decide)).1⟩

end RadioRing
