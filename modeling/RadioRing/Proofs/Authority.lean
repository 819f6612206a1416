import RadioRing.Proofs.Runs

/-!
# Proofs/Authority — why a turn may begin, and why no token is used twice

Every turn begins with a token that was offered, that came with an admission, or that was claimed
when the ring was silent (`Moment.Authorized`).  As long as a node does not leave its network the
round that it holds never falls (`Run.held_le`), and **it rises from the payload of one turn to the
payload of the next** (`Run.held_lt`), since an offer is taken only if it is fresh and a claim is
above everything known.  So no offer is taken twice, however often it is heard.
-/

namespace RadioRing

variable {α : Type}

namespace Moment

/-- The step takes the token that the message offers. -/
def Takes (x : Moment α) (m : Inbound) : Prop :=
  x.Regards m ∧ x.after.node.state = .accepting m.sender m.raw

/-- What gives a node the right to begin its turn with the moment `x`, after `early`. -/
inductive Authorized (early : List (Moment α)) (x : Moment α) : Prop
  /-- It has just taken a token that was offered to it, in its network and with a fresh round, while
  it listened or was alone. -/
  | offered {earlier : List (Moment α)} {y : Moment α} {m : Inbound} {session : Session}
      {round : UInt32} (just : early = earlier ++ [y]) (takes : y.Takes m)
      (state : x.before.node.state = .accepting m.sender m.raw)
      (waited : y.before.node.state = .listening ∨ y.before.node.state = .alone)
      (message : m.message = .turn y.before.node.own session round)
      (same : y.before.node.session = some session) (above : y.before.node.rounds.held < round)
      (latest : y.before.node.rounds.seen ≤ round)
  /-- It is admitted to a network, and the token comes with the admission. -/
  | admitted {m : Inbound} {session : Session} {round : UInt32} {members : List Address}
      (state : x.before.node.state = .awaitingAdmission) (hears : x.heard = some m)
      (message : m.message = .joinAck x.before.node.own session round true members)
  /-- It has listened, and the ring has been silent for too long. -/
  | unopposed (state : x.before.node.state = .listening)
      (due : x.before.node.timers.watchdog.elapsed x.clock.start = true)

/-- What a moment of a stretch says and takes, after the moments `early` of that stretch. -/
structure Advances (early : List (Moment α)) (x : Moment α) : Prop where
  /-- A turn begins with a payload, which tells the round that is held. -/
  begins : x.before.node.state = .speaking → ∃ body, x.Says (.data x.before.node.rounds.held body)
  /-- Such a payload is said at the beginning of a turn only, and its round is above all rounds said
  before, unless it is the last one of all. -/
  newer : ∀ round body, x.Says (.data round body) → x.before.node.state = .speaking ∧
    (round.toNat < lastRound → ∀ y ∈ early, ∀ round', y.SpeaksIn round' → round' < round)
  /-- No frame offers a token twice. -/
  once : ∀ m, x.Takes m → ∀ y ∈ early, ∀ m', y.Takes m' → m'.raw ≠ m.raw

end Moment

/-- The states on the way into a turn. -/
def State.isStarting : State → Bool
  | accepting .. | speaking => true
  | _ => false

variable [Application α]

namespace Moment

variable {x : Moment α} {m : Inbound} {round : UInt32}

/-- Only an offer is taken, in the network of the node and with a fresh round, while the node
listens or is alone. -/
theorem Happens.of_accepting (h : x.Happens) {giver : Address} {echo : Bytes}
    (ha : x.after.node.state = .accepting giver echo) :
    (x.before.node.state = .listening ∨ x.before.node.state = .alone) ∧ ∃ m session round,
      x.Takes m ∧ m.sender = giver ∧ m.raw = echo ∧
      m.message = .turn x.before.node.own session round ∧
      x.before.node.session = some session ∧ x.before.node.rounds.isFresh round = true ∧
      x.after.node.rounds = x.before.node.rounds.accept round := by
  obtain ⟨hs, m, session, round, hm, message, same, fresh, hrounds, rfl, rfl⟩ :=
    h.acts.of_next_accepting (h.state_after ▸ ha)
  exact ⟨hs, m, session, round, ⟨hm, ha⟩, rfl, rfl, message, same, fresh,
    h.rounds_after.trans hrounds⟩

theorem Happens.of_takes (h : x.Happens) (hm : x.Takes m) :
    (x.before.node.state = .listening ∨ x.before.node.state = .alone) ∧ ∃ session round,
      m.message = .turn x.before.node.own session round ∧
      x.before.node.session = some session ∧ x.before.node.rounds.isFresh round = true ∧
      x.after.node.rounds = x.before.node.rounds.accept round := by
  obtain ⟨hs, m', session, round, hm', -, -, message, same, fresh, hrounds⟩ := h.of_accepting hm.2
  obtain rfl := Option.some.inj (hm'.1.symm.trans hm.1)
  exact ⟨hs, session, round, message, same, fresh, hrounds⟩

/-- Every message that a step looks at has passed the filter of the link, now or before. -/
theorem Happens.passes_of_regards (h : x.Happens)
    (hd : ∀ m, x.before.node.deferred = some m → x.before.node.link.Passes m)
    (hm : x.Regards m) : x.before.node.link.Passes m := by
  by_cases hs : x.before.node.state = .listening
  · rw [Regards, Node.regards_of_listening hs, Option.or_eq_some_iff] at hm
    exact hm.elim (hd m) fun hm => h.passes hm.2
  · rw [Regards, Node.regards_of_ne_listening hs] at hm
    exact h.passes hm

end Moment

namespace Station

variable {s t : Station α} {run : List (Moment α)}

theorem Reachable.passes_deferred (h : s.Reachable) :
    ∀ m, s.node.deferred = some m → s.node.link.Passes m := by
  refine h.invariant (P := fun s => ∀ m, s.node.deferred = some m → s.node.link.Passes m)
    (fun s hs m hm => ?_) fun x hx _ ih m hm => ?_
  · obtain ⟨settings, random, -, hn⟩ := hs.node_eq
    rw [hn] at hm
    exact absurd hm nofun
  · have hlink : x.after.node.link = x.before.node.link := by
      unfold Node.link Node.own
      rw [hx.settings_after]
    rw [hlink]
    exact (hx.acts.of_deferred (hx.deferred_after ▸ hm)).elim (ih m) hx.passes

/-! ## What is held along a stretch of a run -/

/-- **A node that does not leave its network never falls behind the round that it holds.** -/
theorem Run.held_le (h : s.Run run t) (hs : s.node.state.isSettled = true)
    (hrun : ∀ x ∈ run, x.before.node.state ≠ .requesting) : t.node.state = .requesting ∨
      t.node.state.isSettled = true ∧ s.node.rounds.held.toNat ≤ t.node.rounds.held.toNat := by
  induction h with
  | refl => exact Or.inr ⟨hs, Nat.le_refl _⟩
  | @step run x h hx ih =>
    obtain ⟨hearly, hlast⟩ := List.forall_mem_append.1 hrun
    have hne := hlast x List.mem_cons_self
    obtain ⟨hsettled, hle⟩ := (ih hearly).resolve_left hne
    rw [hx.state_after, hx.rounds_after]
    exact (hx.acts.held_le hsettled).imp id fun h => ⟨h.1, Nat.le_trans hle h.2⟩

/-- **On the way into its next turn it holds a higher round**, unless it holds the last one. -/
theorem Run.held_lt (h : s.Run run t) (hs : s.node.state.isSettled = true)
    (hstart : s.node.state.isStarting = false)
    (hrun : ∀ x ∈ run, x.before.node.state ≠ .requesting) (ht : t.node.state.isStarting = true) :
    s.node.rounds.held.toNat < t.node.rounds.held.toNat ∨ t.node.rounds.held.toNat = lastRound := by
  induction h with
  | refl => rw [hstart] at ht; exact absurd ht nofun
  | @step run x h hx ih =>
    obtain ⟨hearly, hlast⟩ := List.forall_mem_append.1 hrun
    obtain ⟨hsettled, hle⟩ := (h.held_le hs hearly).resolve_left (hlast x List.mem_cons_self)
    -- A turn comes of a token that is taken, of one taken before, or of a claim.
    cases hstate : x.after.node.state with
    | accepting giver echo =>
      obtain ⟨-, m, session, round, -, -, -, -, -, fresh, hrounds⟩ := hx.of_accepting hstate
      have hheld := (Rounds.isFresh_iff.1 fresh).1
      rw [hrounds, Rounds.toNat_held_accept]
      omega
    | speaking =>
      rcases hx.acts.of_next_speaking (hx.state_after ▸ hstate) with
        ⟨giver, echo, hfrom, hsame⟩ | ⟨hfrom, -⟩ | ⟨-, -, hclaim⟩
      · rw [hx.rounds_after, hsame]
        exact ih hearly (by rw [hfrom]; rfl)
      · rw [hfrom] at hsettled
        exact absurd hsettled nofun
      · rw [hx.rounds_after, hclaim]
        exact Rounds.held_lt_claim hle
    | _ =>
      rw [hstate] at ht
      exact absurd ht nofun

/-! ## Turn by turn -/

/-- A turn begins with authority: a booted node has asked to be admitted first, so what is accepted
was offered in the run. -/
theorem Run.authorized {x : Moment α} (boot : s.Booted) (h : s.Run run x.before) (hx : x.Happens)
    (hs : x.after.node.state = .speaking) : x.Authorized run := by
  rcases hx.acts.of_next_speaking (hx.state_after ▸ hs) with
    ⟨giver, echo, hstate, -⟩ | ⟨hstate, m, session, round, members, hears, message⟩ |
      ⟨hstate, due, -⟩
  · rcases List.eq_nil_or_concat run with rfl | ⟨earlier, y, rfl⟩
    · obtain ⟨settings, random, -, hn⟩ := boot.node_eq
      rw [h.eq_of_nil, hn] at hstate
      exact absurd hstate nofun
    · rw [List.concat_eq_append] at h ⊢
      obtain ⟨-, hy, hyx⟩ := h.of_concat
      rw [hyx] at hstate
      obtain ⟨waited, m, session, round, takes, rfl, rfl, message, same, fresh, -⟩ :=
        hy.of_accepting hstate
      simp only [Rounds.isFresh, Bool.and_eq_true, decide_eq_true_eq] at fresh
      exact .offered rfl takes (hyx ▸ hstate) waited message same fresh.1 fresh.2
  · exact .admitted hstate hears message
  · exact .unopposed hstate due

/-- Only offers wait. -/
theorem Reachable.turn_of_offer (h : s.Reachable) : ∀ m ∈ s.node.offer, m.tag = .turn := by
  intro m hm
  have hfits := (sound_of_reachable h).offer
  have hnone (hn : s.node.offer = none) : m.tag = .turn := absurd (hn.symm.trans hm) nofun
  unfold Node.OfferFits at hfits
  split at hfits
  · obtain ⟨-, taker, session, -, rfl⟩ := hfits m hm
    rfl
  · obtain ⟨-, -, session, -, hoffer⟩ := hfits
    obtain rfl := Option.some.inj (hoffer.symm.trans hm)
    rfl
  · exact hnone hfits

/-- A payload is said with the round that is held, and the node waits for its echo. -/
theorem Reachable.of_payload {x : Moment α} (h : x.before.Reachable) (hx : x.Happens)
    {m : Message} (hm : x.Says m) (htag : m.tag = .data ∨ m.tag = .retry) :
    x.after.node.state = .awaitingEcho ∧ x.after.node.rounds = x.before.node.rounds ∧
      (x.before.node.state = .speaking ∧ (∃ body, m = .data x.before.node.rounds.held body) ∨
        x.before.node.state = .repeating ∧ ∃ body, m = .retry x.before.node.rounds.held body) := by
  obtain ⟨e, he, rfl⟩ := hm
  rw [hx.state_after, hx.rounds_after]
  rcases hx.acts.of_emission he with
    ⟨hs, hrounds, hnext, hdata⟩ | ⟨hs, hrounds, hnext, hretry⟩ | ⟨taker, -, -, -, hoffer⟩ |
    ⟨echo, hm⟩ | hm | ⟨joiner, session, -, -, hm⟩
  · exact ⟨hnext, hrounds, Or.inl ⟨hs, hdata⟩⟩
  · exact ⟨hnext, hrounds, Or.inr ⟨hs, hretry⟩⟩
  · have hturn := hoffer.elim id (h.turn_of_offer _)
    rw [hturn] at htag
    exact htag.elim (absurd · nofun) (absurd · nofun)
  all_goals
    rw [hm] at htag
    exact htag.elim (absurd · nofun) (absurd · nofun)

theorem Reachable.of_speaksIn {x : Moment α} (h : x.before.Reachable) (hx : x.Happens)
    {round : UInt32} (hm : x.SpeaksIn round) :
    x.after.node.state = .awaitingEcho ∧ x.after.node.rounds.held = round := by
  obtain ⟨body, hm | hm⟩ := hm
  · obtain ⟨hstate, hrounds, ⟨-, body', he⟩ | ⟨-, body', he⟩⟩ := h.of_payload hx hm (Or.inl rfl)
    · exact ⟨hstate, hrounds ▸ (Message.data.inj he).1.symm⟩
    · exact absurd he nofun
  · obtain ⟨hstate, hrounds, ⟨-, body', he⟩ | ⟨-, body', he⟩⟩ := h.of_payload hx hm (Or.inr rfl)
    · exact absurd he nofun
    · exact ⟨hstate, hrounds ▸ (Message.retry.inj he).1.symm⟩

/-- What is said for the first time begins a turn. -/
theorem Reachable.of_data {x : Moment α} (h : x.before.Reachable) (hx : x.Happens)
    {round : UInt32} {body : Bytes} (hm : x.Says (.data round body)) :
    x.before.node.state = .speaking ∧ x.before.node.rounds.held = round := by
  obtain ⟨-, -, ⟨hstate, body', he⟩ | ⟨-, body', he⟩⟩ := h.of_payload hx hm (Or.inl rfl)
  · exact ⟨hstate, (Message.data.inj he).1.symm⟩
  · exact absurd he nofun

variable {early : List (Moment α)} {x y : Moment α}

/-- **The payload of a turn has a higher round** than everything that was said before it in a stretch
in which the node stays in its network. -/
theorem Run.speaksIn_lt (hs : s.Reachable) (h : s.Run early x.before) (hx : x.Happens)
    (hstays : ∀ y ∈ early, y.before.node.state ≠ .requesting) {round round' : UInt32}
    {body : Bytes} (hdata : x.Says (.data round body)) (hlast : round.toNat < lastRound)
    (hy : y ∈ early) (hsaid : y.SpeaksIn round') : round' < round := by
  obtain ⟨hstate, rfl⟩ := (h.reachable hs).of_data hx hdata
  obtain ⟨first, between, rfl, hfirst, hyh, hbetween⟩ := h.of_mem hy
  obtain ⟨hechoes, rfl⟩ := (hfirst.reachable hs).of_speaksIn hyh hsaid
  have hlt := hbetween.held_lt (by rw [hechoes]; rfl) (by rw [hechoes]; rfl)
    (fun z hz => hstays z (List.mem_append_right _ (List.mem_cons_of_mem _ hz)))
    (by rw [hstate]; rfl)
  exact UInt32.lt_iff_toNat_lt.2 (hlt.resolve_right (Nat.ne_of_lt hlast))

/-- **No frame offers a token twice** in such a stretch. -/
theorem Run.raw_ne (hs : s.Reachable) (h : s.Run early x.before) (hx : x.Happens)
    (hstays : ∀ y ∈ early, y.before.node.state ≠ .requesting) {m m' : Inbound} (hm : x.Takes m)
    (hy : y ∈ early) (hm' : y.Takes m') : m'.raw ≠ m.raw := by
  intro hraw
  have hpasses := hx.passes_of_regards (h.reachable hs).passes_deferred hm.1
  obtain ⟨first, between, rfl, hfirst, hyh, hbetween⟩ := h.of_mem hy
  have hpasses' := hyh.passes_of_regards (hfirst.reachable hs).passes_deferred hm'.1
  -- The same bytes offer the same round, which has been held since it was taken.
  obtain ⟨hstate, session, round, message, -, fresh, -⟩ := hx.of_takes hm
  obtain ⟨-, session', round', message', -, -, hrounds⟩ := hyh.of_takes hm'
  have hmessage : m'.message = m.message :=
    Except.ok.inj (hpasses'.reads.symm.trans (hraw ▸ hpasses.reads))
  rw [message, message'] at hmessage
  obtain rfl : round' = round := (Message.turn.inj hmessage).2.2
  have hle := hbetween.held_le (by rw [hm'.2]; rfl)
    fun z hz => hstays z (List.mem_append_right _ (List.mem_cons_of_mem _ hz))
  have hne : x.before.node.state ≠ .requesting := by
    rcases hstate with hstate | hstate <;> rw [hstate] <;> nofun
  have hheld := (hle.resolve_left hne).2
  rw [hrounds, Rounds.toNat_held_accept] at hheld
  have hfresh := (Rounds.isFresh_iff.1 fresh).1
  omega

theorem Reachable.advances (hs : s.Reachable) (h : s.Run early x.before) (hx : x.Happens)
    (hstays : ∀ y ∈ early, y.before.node.state ≠ .requesting) : x.Advances early where
  begins hstate := by
    have hreacts := hx.steps.reacts
    unfold Node.react at hreacts
    rw [hstate] at hreacts
    have he : x.reaction.emission = some (.toAll (.data x.before.node.rounds.held
        (Application.wrap (Application.nextPayload x.before.app).2
          (Application.nextPayload x.before.app).1).1)) := by
      rw [← Except.ok.inj hreacts]
      rfl
    exact ⟨_, _, he, rfl⟩
  newer round body hdata :=
    ⟨((h.reachable hs).of_data hx hdata).1, fun hlast _ hy _ hsaid =>
      h.speaksIn_lt hs hx hstays hdata hlast hy hsaid⟩
  once _ hm _ hy _ hm' := h.raw_ne hs hx hstays hm hy hm'

end Station

/-- **A turn needs authority, and no token is used twice.**  In every run of a node that has been
switched on, a turn begins with a token that the node has just taken from a fresh offer, that came
with its admission, or that it claims in a silent ring; and in every stretch of the run in which it
does not ask to be admitted, the payload of a turn has a higher round than all payloads before it,
up to the last round, and no frame starts two turns. -/
theorem turns_begin_with_authority {s₀ s : Station α} {run : List (Moment α)} (boot : s₀.Booted)
    (h : s₀.Run run s) :
    (∀ early x late, run = early ++ x :: late → x.after.node.state = .speaking →
      x.Authorized early) ∧
    ∀ before stretch after, run = before ++ stretch ++ after →
      (∀ x ∈ stretch, x.before.node.state ≠ .requesting) →
      ∀ early x late, stretch = early ++ x :: late → x.Advances early := by
  refine ⟨?_, ?_⟩
  · rintro early x late rfl hs
    obtain ⟨hearly, hx, -⟩ := h.of_middle
    exact hearly.authorized boot hx hs
  · rintro before stretch after rfl hstays early x late rfl
    obtain ⟨u, hu, -⟩ := h.of_append
    obtain ⟨v, hv, hstretch⟩ := hu.of_append
    obtain ⟨hearly, hx, -⟩ := hstretch.of_middle
    exact (hv.reachable boot.reachable).advances hearly hx
      fun y hy => hstays y (List.mem_append_left _ hy)

/-- Node 1 is admitted by node 2 with the token of round 6, offers the next one to node 2, and is
offered the one after that. -/
def twoTurns? : Option (Station Beacon × List (Moment Beacon) × Station Beacon) :=
  Station.played? ⟨1⟩ [
    (.zero, []),
    (.zero, [⟨some ⟨2⟩, ⟨1⟩, (Message.joinAck ⟨1⟩ ⟨7⟩ 5 true [⟨1⟩, ⟨2⟩]).encode⟩]),
    (.zero, []), (.ofMillis 8000, []), (.ofMillis 8000, []),
    (.ofMillis 8000, [⟨some ⟨2⟩, .everyone, (Message.turn ⟨1⟩ ⟨7⟩ 8).encode⟩]),
    (.ofMillis 8000, []), (.ofMillis 8000, []), (.ofMillis 8000, [])]

theorem isSome_twoTurns? : twoTurns?.isSome = true := by decide

/-- What that node does. -/
def twoTurns : List (Moment Beacon) := (twoTurns?.get isSome_twoTurns?).2.1

/-- The moment that takes the node into its second turn. -/
def secondTurn : Moment Beacon := twoTurns.get ⟨7, by decide⟩

/-- The stretch of the run after the node has asked to be admitted, as far as the payload of the
second turn. -/
def payloads : List (Moment Beacon) := twoTurns.drop 1

/-- The moment of that payload. -/
def secondPayload : Moment Beacon := payloads.get ⟨7, by decide⟩

/-- Node 1 has the right to begin its second turn, and the payload of that turn has a higher round
than the one of the first turn. -/
theorem turns_begin_with_authority_of_two :
    secondTurn.Authorized (twoTurns.take 7) ∧ secondPayload.Says (.data 8 [1, 1, 0]) ∧
    (∃ y ∈ payloads.take 7, y.SpeaksIn 6) ∧
    ∀ y ∈ payloads.take 7, ∀ round, y.SpeaksIn round → round < 8 := by
  obtain ⟨boot, hrun⟩ := Station.run_of_played? (Option.some_get isSome_twoTurns?).symm
  obtain ⟨hauthority, hstretch⟩ := turns_begin_with_authority boot hrun
  have hdata : secondPayload.Says (.data 8 [1, 1, 0]) := by
    unfold Moment.Says
    decide
  have hsplit : twoTurns = twoTurns.take 1 ++ payloads ++ [] := by
    rw [List.append_nil, payloads, List.take_append_drop]
  have hadvances : secondPayload.Advances (payloads.take 7) :=
    hstretch _ _ _ hsplit (by decide) _ _ _ (Station.eq_take_append_get payloads ⟨7, by decide⟩)
  refine ⟨hauthority _ _ _ (Station.eq_take_append_get twoTurns ⟨7, by decide⟩) (by decide), hdata,
    ⟨(payloads.take 7).get ⟨1, by decide⟩, List.get_mem _ _, [1, 0, 0], Or.inl ?_⟩, ?_⟩
  · unfold Moment.Says
    decide
  · exact (hadvances.newer _ _ hdata).2 (by decide)

end RadioRing
