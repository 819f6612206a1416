import RadioRing.Proofs.Runs

/-!
# Proofs/Duplicates — a request that is answered twice

A listener that answers a request to be admitted lets in itself and the joiner, so answering the
same request once more changes nobody's place, no counter of admissions and nobody's idea of who
holds the token.  **If anybody else takes turns, the second answer is the first one again.**  If
nobody does, the token comes with every answer: the node takes note of the round that the joiner
will claim, and the second answer tells of that round (`answers_alike_iff`).
-/

namespace RadioRing

variable {α : Type}

/-- What a node knows of its ring. -/
structure View where
  settings : Settings
  session : Option Session
  table : Membership
  rounds : Rounds
  presumedHolder : Option Address
  /-- How many peers it has let in. -/
  admissions : Nat

/-- What the node knows of its ring. -/
def Node.view (n : Node) : View :=
  { settings := n.settings, session := n.session, table := n.table, rounds := n.rounds
    presumedHolder := n.presumedHolder, admissions := n.stats.admissions }

/-- A listener is not disturbed in a step: its watchdog has not run out, and it looks at nothing but
requests of `joiner`. -/
def Moment.Undisturbed (x : Moment α) (joiner : Address) : Prop :=
  x.before.node.state = .listening →
    x.before.node.timers.watchdog.elapsed x.clock.start = false ∧
      ∀ m, x.Regards m → m.message = .joinRequest joiner

variable [Application α]

/-- The station listens, is not disturbed until it says `e`, and listens again: it has answered a
request of `joiner`. -/
structure Station.Answers (s : Station α) (joiner : Address) (e : Emission) (s' : Station α) :
    Prop where
  listens : s.node.state = .listening
  member : s.node.session.isSome = true
  run : ∃ (run : List (Moment α)) (x : Moment α), s.Run run x.before ∧ x.Happens ∧ x.after = s' ∧
    (∀ y ∈ run, y.Undisturbed joiner ∧ y.reaction.emission = none) ∧
    x.Undisturbed joiner ∧ x.reaction.emission = some e ∧ x.taken = true

namespace Moment

variable {x : Moment α} {joiner : Address}

/-- A listener that is not disturbed goes on listening, or is about to answer. -/
theorem Happens.of_undisturbed (hx : x.Happens) (hs : x.before.node.state = .listening)
    (member : x.before.node.session.isSome = true) (hu : x.Undisturbed joiner) :
    x.reaction.emission = none ∧ x.reaction.node.view = x.before.node.view ∧
      x.reaction.transition.marks = [] ∧ (x.reaction.transition.next = .listening ∨
        x.reaction.transition.next = .admitting joiner) := by
  obtain ⟨early, hregards⟩ := hu hs
  have hreact := hx.steps.reacts
  unfold Node.react at hreact
  rw [hs] at hreact
  obtain hr := Except.ok.inj hreact
  rw [Node.listen_eq _ _ early] at hr
  unfold Moment.Regards at hregards
  rw [Node.regards_of_listening hs] at hregards
  cases hm : x.before.node.deferred.or x.heard with
  | none =>
    rw [hm] at hr
    rw [← hr]
    exact ⟨rfl, rfl, rfl, Or.inl rfl⟩
  | some m =>
    rw [hm] at hr
    have hmessage := hregards m hm
    have hreadmission := (x.before.node.awake x.clock.heard).readmission_joinRequest hmessage
    have hmember : (x.before.node.awake x.clock.heard).session.isSome = true := member
    have asked : (x.before.node.awake x.clock.heard).hearAsListener x.before.app m =
        { node := x.before.node.awake x.clock.heard
          app := x.before.app
          transition := .goTo (.admitting joiner) } := by
      unfold Node.hearAsListener
      simp [hmessage, hmember, hreadmission, Transition.withMarks, Transition.goTo]
    rw [← hr]
    dsimp only
    rw [asked]
    exact ⟨rfl, rfl, rfl, Or.inr rfl⟩

/-- A node that is about to answer goes on waiting, or answers. -/
theorem Happens.of_admitting (hx : x.Happens) {session : Session}
    (hs : x.before.node.state = .admitting joiner) (member : x.before.node.session = some session) :
    (x.reaction.emission = none ∧ x.reaction.node.view = x.before.node.view ∧
      x.reaction.transition = .goTo (.admitting joiner)) ∨
    (x.reaction.emission = some (.toAll (x.before.node.answerFor session joiner) .admission) ∧
      x.reaction.node = (if x.before.node.table.anyBesides [x.before.node.own, joiner]
        then x.before.node else x.before.node.letGoTo joiner) ∧
      x.reaction.transition = ((Transition.goTo .listening).mark x.before.node.own true).mark
        joiner true) := by
  have hreact := hx.steps.reacts
  unfold Node.react at hreact
  rw [hs] at hreact
  have hr := Except.ok.inj hreact
  unfold Node.admitting at hr
  rw [← hr]
  cases hd : x.before.node.timers.reply.elapsed x.clock.start with
  | false =>
    cases x.heard with
    | none => exact Or.inl ⟨rfl, rfl, rfl⟩
    | some m =>
      obtain ⟨deferred, dropped, hput, -⟩ := x.before.node.fst_putAside m
      have hview : (x.before.node.putAside m).1.view = x.before.node.view := by
        rw [hput]
        rfl
      exact Or.inl ⟨rfl, hview, rfl⟩
  | true =>
    simp only [member, not_true_eq_false, if_false, ite_not, and_self, or_true]

/-- A step without marks leaves a node with what its reaction knows. -/
theorem Happens.view_after (hx : x.Happens) (hmarks : x.reaction.transition.marks = []) :
    x.after.node.view = x.reaction.node.view := by
  have hstats := hx.stats_after (by rw [hmarks]; exact List.forall_mem_nil _)
  obtain ⟨timers, random, e, a, hn⟩ := hx.node_after
  have hadmissions : x.after.node.stats.admissions = x.reaction.node.stats.admissions := by
    rw [hstats, Reaction.admissions_booked]
  unfold Node.view
  rw [hadmissions, hn, hmarks]
  rfl

end Moment

namespace Station

variable {s s' t : Station α} {run : List (Moment α)} {joiner : Address} {session : Session}

/-- **Until a listener answers it knows what it knew.** -/
theorem Run.view_eq (h : s.Run run t) (listens : s.node.state = .listening)
    (member : s.node.session = some session)
    (quiet : ∀ y ∈ run, y.Undisturbed joiner ∧ y.reaction.emission = none) :
    t.node.view = s.node.view ∧ (t.node.state = .listening ∨ t.node.state = .admitting joiner) := by
  induction h with
  | refl => exact ⟨rfl, Or.inl listens⟩
  | @step run x h hx ih =>
    obtain ⟨hearly, hlast⟩ := List.forall_mem_append.1 quiet
    obtain ⟨hu, he⟩ := hlast x List.mem_cons_self
    obtain ⟨hview, hstate⟩ := ih hearly
    have hsession : x.before.node.session = some session :=
      (congrArg View.session hview).trans member
    rw [hx.state_after]
    rcases hstate with hstate | hstate
    · obtain ⟨-, hsame, hmarks, hnext⟩ := hx.of_undisturbed hstate (by rw [hsession]; rfl) hu
      exact ⟨(hx.view_after hmarks).trans (hsame.trans hview), hnext⟩
    · rcases hx.of_admitting hstate hsession with ⟨-, hsame, htrans⟩ | ⟨hanswer, -⟩
      · rw [htrans]
        exact ⟨(hx.view_after (by rw [htrans]; rfl)).trans (hsame.trans hview), Or.inr rfl⟩
      · exact absurd (he.symm.trans hanswer) nofun

/-- The changes that an answer makes to the table. -/
def answerMarks (own joiner : Address) : List Mark := [⟨own, true⟩, ⟨joiner, true⟩]

/-- Whether anybody but the node and `joiner` takes turns. -/
def Crowded (s : Station α) (joiner : Address) : Prop :=
  s.node.table.anyBesides [s.node.own, joiner] = true

/-- What an answer says, and what it leaves behind. -/
structure Answered (s : Station α) (joiner : Address) (e : Emission) (s' : Station α) : Prop where
  answer : ∃ session, s.node.session = some session ∧
    e = .toAll (s.node.answerFor session joiner) .admission
  settings : s'.node.settings = s.node.settings
  session : s'.node.session = s.node.session
  table : s'.node.table = s.node.table.markAll (answerMarks s.node.own joiner)
  crowded : s.Crowded joiner →
    s'.node.rounds = s.node.rounds ∧ s'.node.presumedHolder = s.node.presumedHolder
  uncrowded : ¬s.Crowded joiner → s'.node.rounds = (s.node.letGoTo joiner).rounds ∧
    s'.node.presumedHolder = some joiner
  admissions : (∀ x ∈ answerMarks s.node.own joiner, s.node.table.isNews x.node x.eligible = false) →
    s'.node.stats.admissions = s.node.stats.admissions

omit [Application α] in
/-- An answer depends on nothing but what the node knows. -/
theorem Answered.of_view {e : Emission} (h : t.Answered joiner e s')
    (hview : t.node.view = s.node.view) : s.Answered joiner e s' := by
  simp only [Node.view, View.mk.injEq] at hview
  obtain ⟨hsettings, hsession, htable, hrounds, hholder, hadmissions⟩ := hview
  have hown : t.node.own = s.node.own := congrArg Settings.node hsettings
  have hcrowded : t.Crowded joiner ↔ s.Crowded joiner := by rw [Crowded, htable, hown]; rfl
  have hletGo : (t.node.letGoTo joiner).rounds = (s.node.letGoTo joiner).rounds := by
    simp only [Node.letGoTo, hrounds]
  have hanswer (session : Session) :
      t.node.answerFor session joiner = s.node.answerFor session joiner := by
    simp only [Node.answerFor, htable, hown, hrounds]
  refine ⟨?_, ?_, ?_, ?_, fun hc => ?_, fun hc => ?_, fun hold => ?_⟩
  · rw [← hsession]
    simpa only [hanswer] using h.answer
  · rw [← hsettings, h.settings]
  · rw [← hsession, h.session]
  · rw [← htable, ← hown, h.table]
  · rw [← hrounds, ← hholder]
    exact h.crowded (hcrowded.2 hc)
  · rw [← hletGo]
    exact h.uncrowded (mt hcrowded.1 hc)
  · rw [← hadmissions]
    exact h.admissions (by rwa [htable, hown])

/-- **What an answer does**, in the step that says it. -/
theorem answered_of_happens {x : Moment α} {e : Emission} (hx : x.Happens)
    (hs : x.before.node.state = .admitting joiner) (member : x.before.node.session = some session)
    (he : x.reaction.emission = some e) : x.before.Answered joiner e x.after := by
  rcases hx.of_admitting hs member with ⟨hnone, -⟩ | ⟨hanswer, hnode, htrans⟩
  · exact absurd (hnone.symm.trans he) nofun
  · have hmarks : x.reaction.transition.marks = answerMarks x.before.node.own joiner := by
      rw [htrans]
      rfl
    refine ⟨⟨session, member, Option.some.inj (he.symm.trans hanswer)⟩, hx.settings_after, ?_, ?_,
      fun hc => ?_, fun hc => ?_, fun hold => ?_⟩
    · rw [hx.session_after, hnode]
      split <;> rfl
    · rw [hx.table_after, hmarks]
    · unfold Crowded at hc
      rw [hx.rounds_after, hx.presumedHolder_after, hnode, if_pos hc]
      exact ⟨rfl, rfl⟩
    · unfold Crowded at hc
      rw [hx.rounds_after, hx.presumedHolder_after, hnode, if_neg hc]
      exact ⟨rfl, rfl⟩
    · rw [hx.stats_after (by rwa [hmarks]), Reaction.admissions_booked, hnode]
      split <;> rfl

theorem Answers.answered {e : Emission} (h : s.Answers joiner e s') : s.Answered joiner e s' := by
  obtain ⟨listens, member, run, x, hrun, hx, rfl, quiet, hu, he, -⟩ := h
  obtain ⟨session, hsession⟩ := Option.isSome_iff_exists.1 member
  obtain ⟨hview, hstate⟩ := hrun.view_eq listens hsession quiet
  have hmember : x.before.node.session = some session :=
    (congrArg View.session hview).trans hsession
  rcases hstate with hstate | hstate
  · obtain ⟨hnone, -⟩ := hx.of_undisturbed hstate (by rw [hmember]; rfl) hu
    exact absurd (hnone.symm.trans he) nofun
  · exact (answered_of_happens hx hstate hmember he).of_view hview

end Station

/-- **Who hands the token to a newcomer takes note of one more round**, up to the last one. -/
theorem Node.toNat_seen_letGoTo {n : Node} {joiner : Address} (h : n.rounds.seen ≠ 4294967295) :
    (n.letGoTo joiner).rounds.seen.toNat = n.rounds.seen.toNat + 1 := by
  have hrounds : (n.letGoTo joiner).rounds = n.rounds.observe
      (if n.rounds.seen = 4294967295 then n.rounds.seen else n.rounds.seen + 1) := rfl
  have hnext : (n.rounds.seen + 1).toNat = n.rounds.seen.toNat + 1 := by
    rw [UInt32.toNat_add]
    exact Nat.mod_eq_of_lt (Nat.succ_lt_succ (toNat_lt_lastRound h))
  rw [hrounds, Rounds.toNat_seen_observe, if_neg h, hnext]
  exact Nat.max_eq_right (Nat.le_succ _)

/-- **Handing over to a newcomer raises what is seen**, unless that is the last round already. -/
theorem Node.seen_letGoTo_eq_iff {n : Node} {joiner : Address} :
    (n.letGoTo joiner).rounds.seen = n.rounds.seen ↔ n.rounds.seen = 4294967295 := by
  refine ⟨fun h => Classical.byContradiction fun hlast => ?_, fun hlast => ?_⟩
  · exact Nat.ne_of_lt (Nat.lt_succ_self _)
      ((congrArg UInt32.toNat h).symm.trans (toNat_seen_letGoTo hlast))
  · have hrounds : (n.letGoTo joiner).rounds.seen = max n.rounds.seen
        (if n.rounds.seen = 4294967295 then n.rounds.seen else n.rounds.seen + 1) := rfl
    rw [hrounds, if_pos hlast, ← UInt32.toNat_inj, toNat_max, Nat.max_self]

theorem Node.rounds_letGoTo_eq_iff {n : Node} {joiner : Address} :
    (n.letGoTo joiner).rounds = n.rounds ↔ n.rounds.seen = 4294967295 :=
  ⟨fun h => seen_letGoTo_eq_iff.1 (congrArg Rounds.seen h),
    fun h => Rounds.ext rfl (seen_letGoTo_eq_iff.2 h)⟩

namespace Station

variable {s s₁ s₂ : Station α} {joiner : Address} {e e₁ e₂ : Emission}

omit [Application α] in
/-- An answer changes the place of nobody but the node and the joiner. -/
theorem Answered.isEligible_iff (h : s.Answered joiner e s₁) {x : Address}
    (hx : x ∉ [s.node.own, joiner]) :
    s.node.table.isEligible x = true ↔ s₁.node.table.isEligible x = true := by
  have hmarks : ¬∃ y ∈ answerMarks s.node.own joiner, y.node = x := by
    simpa [answerMarks, eq_comm] using hx
  rw [h.table, Membership.isEligible_markAll (by simp [answerMarks])]
  simp [hmarks]

omit [Application α] in
/-- The same request is no news any more. -/
theorem Answered.isNews (h : s.Answered joiner e s₁) : ∀ x ∈ answerMarks s₁.node.own joiner,
    s₁.node.table.isNews x.node x.eligible = false := by
  have hown : s₁.node.own = s.node.own := congrArg Settings.node h.settings
  rw [hown, h.table]
  exact fun x => Membership.isNews_markAll (by simp [answerMarks])

omit [Application α] in
theorem Answered.crowded_iff (h : s.Answered joiner e s₁) :
    s₁.Crowded joiner ↔ s.Crowded joiner := by
  have hown : s₁.node.own = s.node.own := congrArg Settings.node h.settings
  unfold Crowded
  rw [hown, Membership.anyBesides_congr fun x hx => h.isEligible_iff hx]

omit [Application α] in
/-- Two answers to one request differ in nothing but the round that they tell. -/
theorem Answered.encode_eq_iff (h₁ : s.Answered joiner e₁ s₁) (h₂ : s₁.Answered joiner e₂ s₂) :
    e₁.message.encode = e₂.message.encode ↔ s₁.node.rounds.seen = s.node.rounds.seen := by
  have hown : s₁.node.own = s.node.own := congrArg Settings.node h₁.settings
  obtain ⟨session, hsession, rfl⟩ := h₁.answer
  obtain ⟨session', hsession', rfl⟩ := h₂.answer
  obtain rfl : session' = session :=
    Option.some.inj (hsession'.symm.trans (h₁.session.trans hsession))
  refine ⟨fun h => (Message.round_eq_of_encode_joinAck h).symm, fun hseen => ?_⟩
  have hothers : s₁.node.table.anyBesides [s.node.own, joiner] =
      s.node.table.anyBesides [s.node.own, joiner] :=
    (Membership.anyBesides_congr fun x hx => h₁.isEligible_iff hx).symm
  have hmembers : s₁.node.table.eligibleWith [s.node.own, joiner] =
      s.node.table.eligibleWith [s.node.own, joiner] :=
    (Membership.eligibleWith_congr fun x hx => h₁.isEligible_iff hx).symm
  simp only [Emission.toAll, Node.answerFor, hown, hseen, hothers, hmembers]

end Station

/-- **A request that is answered twice.**  The second answer changes nobody's place in the table, no
counter of admissions and nobody's idea of who holds the token.  It is the first answer again, byte
for byte, exactly if somebody besides the node and the joiner takes turns or no round is left to
tell, and only then does it leave the rounds as they are. -/
theorem answers_alike_iff {s s₁ s₂ : Station α} {joiner : Address} {e₁ e₂ : Emission}
    (first : s.Answers joiner e₁ s₁) (second : s₁.Answers joiner e₂ s₂) :
    s₂.node.table = s₁.node.table ∧
    s₂.node.stats.admissions = s₁.node.stats.admissions ∧
    s₂.node.presumedHolder = s₁.node.presumedHolder ∧
    (e₁.message.encode = e₂.message.encode ↔
      s.Crowded joiner ∨ s.node.rounds.seen = 4294967295) ∧
    (s₂.node.rounds = s₁.node.rounds ↔
      s.Crowded joiner ∨ s₁.node.rounds.seen = 4294967295) := by
  have h₁ := first.answered
  have h₂ := second.answered
  refine ⟨h₂.table.trans (Membership.markAll_eq_self h₁.isNews), h₂.admissions h₁.isNews, ?_⟩
  rw [h₁.encode_eq_iff h₂]
  by_cases hc : s.Crowded joiner
  · obtain ⟨hrounds₁, -⟩ := h₁.crowded hc
    obtain ⟨hrounds₂, hholder₂⟩ := h₂.crowded (h₁.crowded_iff.2 hc)
    exact ⟨hholder₂, iff_of_true (congrArg _ hrounds₁) (Or.inl hc),
      iff_of_true hrounds₂ (Or.inl hc)⟩
  · obtain ⟨hrounds₁, hholder₁⟩ := h₁.uncrowded hc
    obtain ⟨hrounds₂, hholder₂⟩ := h₂.uncrowded (mt h₁.crowded_iff.1 hc)
    refine ⟨hholder₂.trans hholder₁.symm, ?_, ?_⟩
    · rw [hrounds₁, Node.seen_letGoTo_eq_iff]
      simp [hc]
    · rw [hrounds₂, Node.rounds_letGoTo_eq_iff]
      simp [hc]

/-! ## Node 2 asks node 1 -/

/-- The request of node 2 to be admitted, as it is heard. -/
def requestOfTwo : Inbound :=
  ⟨⟨2⟩, .everyone, .joinRequest ⟨2⟩, (Message.joinRequest ⟨2⟩).encode⟩

/-- Node 1 as a member of the network of node `via`. -/
def memberVia? (via : Address) : Option (Station Beacon × List (Moment Beacon) × Station Beacon) :=
  Station.played? ⟨1⟩ [(.zero, []),
    (.zero, [⟨some via, ⟨1⟩, (Message.joinAck ⟨1⟩ ⟨7⟩ 5 false [⟨1⟩, via]).encode⟩])]

/-- A station hears that request, and answers it at once. -/
def handled? (s : Station Beacon) : Option (Moment Beacon × Moment Beacon) :=
  (s.moment? ({ inbox := [⟨some ⟨2⟩, .everyone, requestOfTwo.raw⟩] } : ScriptedRadio)
    (.still .zero)).bind fun x =>
      (x.after.moment? ({} : ScriptedRadio) (.still .zero)).map fun y => (x, y)

theorem happens_of_handled? {s : Station Beacon} {p : Moment Beacon × Moment Beacon}
    (h : handled? s = some p) :
    p.1.Happens ∧ p.1.before = s ∧ p.2.Happens ∧ p.2.before = p.1.after := by
  obtain ⟨x, hx, hp⟩ := Option.bind_eq_some_iff.1 h
  obtain ⟨y, hy, rfl⟩ := Option.map_eq_some_iff.1 hp
  obtain ⟨hxh, rfl⟩ := Station.happens_of_moment? hx
  obtain ⟨hyh, hyx⟩ := Station.happens_of_moment? hy
  exact ⟨hxh, rfl, hyh, hyx⟩

theorem answers_of_handled? {s : Station Beacon} {p : Moment Beacon × Moment Beacon}
    {e : Emission} (h : handled? s = some p) (listens : s.node.state = .listening)
    (member : s.node.session.isSome = true)
    (early : p.1.before.node.timers.watchdog.elapsed p.1.clock.start = false)
    (regards : p.1.before.node.regards p.1.heard = some requestOfTwo)
    (silent : p.1.reaction.emission = none) (state : p.2.before.node.state ≠ .listening)
    (answer : p.2.reaction.emission = some e) (taken : p.2.taken = true) :
    s.Answers ⟨2⟩ e p.2.after := by
  obtain ⟨hx, rfl, hy, hyx⟩ := happens_of_handled? h
  have hu : p.1.Undisturbed ⟨2⟩ := by
    refine fun _ => ⟨early, fun m hm => ?_⟩
    obtain rfl := Option.some.inj (regards.symm.trans hm)
    rfl
  refine ⟨listens, member, [p.1], p.2, hyx ▸ .cons hx .refl, hy, rfl, ?_,
    fun hs => absurd hs state, answer, taken⟩
  simpa using ⟨hu, silent⟩

/-- Node 1 in a network that node 3 has let it into, or node 2, before and after it has answered the
request of node 2 twice. -/
def handledTwice? (crowded : Bool) :
    Option (Station Beacon × (Moment Beacon × Moment Beacon) × Moment Beacon × Moment Beacon) :=
  (memberVia? (if crowded then ⟨3⟩ else ⟨2⟩)).bind fun p =>
    (handled? p.2.2).bind fun first => (handled? first.2.after).map fun second =>
      (p.2.2, first, second)

theorem isSome_handledTwice? (crowded : Bool) : (handledTwice? crowded).isSome = true := by
  cases crowded <;> decide

def handledTwice (crowded : Bool) :
    Station Beacon × (Moment Beacon × Moment Beacon) × Moment Beacon × Moment Beacon :=
  (handledTwice? crowded).get (isSome_handledTwice? crowded)

/-- The answer of node 1 to node 2. -/
def answerToTwo (crowded : Bool) (round : UInt32) : Emission :=
  .toAll (.joinAck ⟨2⟩ ⟨7⟩ round (!crowded) (if crowded then [⟨1⟩, ⟨2⟩, ⟨3⟩] else [⟨1⟩, ⟨2⟩]))
    .admission

theorem handled_handledTwice (crowded : Bool) : (handledTwice crowded).1.Reachable ∧
    handled? (handledTwice crowded).1 = some (handledTwice crowded).2.1 ∧
    handled? (handledTwice crowded).2.1.2.after = some (handledTwice crowded).2.2 := by
  obtain ⟨p, hp, hrest⟩ := Option.bind_eq_some_iff.1
    (Option.some_get (isSome_handledTwice? crowded)).symm
  obtain ⟨first, hfirst, hrest⟩ := Option.bind_eq_some_iff.1 hrest
  obtain ⟨second, hsecond, htwice⟩ := Option.map_eq_some_iff.1 hrest
  obtain ⟨boot, hrun⟩ := Station.run_of_played? hp
  have hall : handledTwice crowded = (p.2.2, first, second) := htwice.symm
  rw [hall]
  exact ⟨hrun.reachable boot.reachable, hfirst, hsecond⟩

theorem answers_first (crowded : Bool) : (handledTwice crowded).1.Answers ⟨2⟩
    (answerToTwo crowded 5) (handledTwice crowded).2.1.2.after := by
  obtain ⟨-, hfirst, -⟩ := handled_handledTwice crowded
  refine answers_of_handled? hfirst ?_ ?_ ?_ ?_ ?_ ?_ ?_ ?_ <;> cases crowded <;> decide

theorem answers_second (crowded : Bool) : (handledTwice crowded).2.1.2.after.Answers ⟨2⟩
    (answerToTwo crowded (if crowded then 5 else 6)) (handledTwice crowded).2.2.2.after := by
  obtain ⟨-, -, hsecond⟩ := handled_handledTwice crowded
  refine answers_of_handled? hsecond ?_ ?_ ?_ ?_ ?_ ?_ ?_ ?_ <;> cases crowded <;> decide

/-- With node 3 around, the second answer of node 1 to node 2 leaves everything as it is. -/
theorem answers_alike_of_three : (handledTwice true).1.Crowded ⟨2⟩ ∧
    (handledTwice true).2.2.2.after.node.table = (handledTwice true).2.1.2.after.node.table ∧
    (handledTwice true).2.2.2.after.node.rounds = (handledTwice true).2.1.2.after.node.rounds := by
  have hcrowded : (handledTwice true).1.Crowded ⟨2⟩ := by
    unfold Station.Crowded
    decide
  obtain ⟨htable, -, -, -, hrounds⟩ := answers_alike_iff (answers_first true) (answers_second true)
  exact ⟨hcrowded, htable, hrounds.2 (Or.inl hcrowded)⟩

/-- **Two nodes that are by themselves do not agree on one answer**: every repetition of the request
gets a higher round. -/
theorem not_answers_alike : ¬∀ (s s₁ s₂ : Station Beacon) (joiner : Address) (e₁ e₂ : Emission),
    s.Reachable → joiner ∈ s.node.settings.roster → joiner ≠ s.node.own →
      s.Answers joiner e₁ s₁ → s₁.Answers joiner e₂ s₂ →
        e₁.message.encode = e₂.message.encode := by
  intro hall
  have hsame := hall _ _ _ ⟨2⟩ _ _ (handled_handledTwice false).1 (by decide) (by decide)
    (answers_first false) (answers_second false)
  exact absurd hsame (by decide)

end RadioRing
