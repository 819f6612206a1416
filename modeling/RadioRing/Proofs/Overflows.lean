import RadioRing.Deployment.Basic
import RadioRing.Proofs.Refusals
import RadioRing.Proofs.Solitude

/-!
# Proofs/Overflows — when a sum of durations cannot be told

A sum of durations that reaches 2^64 seconds, and a number of offers that does not fit its word,
have no value, and whoever needs it fails.  The check of the settings fails **exactly if it gets as
far as the turn cycle and the cycle cannot be told** (`Settings.CycleFits`).  A step fails exactly
if it asks to be admitted, or goes on alone, and its wait cannot be told with the delay that it
draws (`Node.Overflows`); no check rules that out, but settings with room for the longest delay do
(`Settings.Roomy`), and those of a deployment always have it.
-/

namespace RadioRing

namespace Duration

theorem ofNanos?_eq_none_iff {n : Nat} : ofNanos? n = none ↔ limit ≤ n := by
  unfold ofNanos?
  split
  · rename_i h
    exact iff_of_false (Option.some_ne_none _) (Nat.not_le.2 h)
  · rename_i h
    exact iff_of_true rfl (Nat.not_lt.1 h)

/-- Two durations have no sum exactly if it reaches the limit of durations. -/
theorem add?_eq_none_iff {a b : Duration} : a.add? b = none ↔ limit ≤ a.nanos + b.nanos :=
  ofNanos?_eq_none_iff

end Duration

namespace Settings

/-- The longest silence of a working holder can be told: the number of offers fits a word, and the
sum is a duration. -/
structure CycleFits (s : Settings) : Prop where
  offers : s.offerRetryLimit.toNat + 1 < 4294967296
  sum : s.timings.turn.nanos + s.timings.offerRetry.nanos * (s.offerRetryLimit.toNat + 1) +
    s.timings.answerJitter.nanos < Duration.limit

/-- The turn cycle is the time of the turn, of all offers and of the last answer. -/
theorem turnCycle?_eq_some_iff {s : Settings} {cycle : Duration} :
    s.turnCycle? = some cycle ↔ s.offerRetryLimit.toNat + 1 < 4294967296 ∧
      s.timings.turn.nanos + s.timings.offerRetry.nanos * (s.offerRetryLimit.toNat + 1) +
        s.timings.answerJitter.nanos = cycle.nanos := by
  have hguard : (guard (s.offerRetryLimit.toNat + 1 < 4294967296) : Option Unit) =
      if s.offerRetryLimit.toNat + 1 < 4294967296 then some () else none := rfl
  unfold turnCycle?
  dsimp only
  rw [hguard]
  simp only [Option.bind_eq_bind, Option.bind_eq_some_iff, Duration.scale?_eq_some_iff,
    Duration.add?_eq_some_iff, Option.ite_none_right_eq_some]
  constructor
  · rintro ⟨-, ⟨hoffers, -⟩, offering, hoffering, busy, hbusy, hcycle⟩
    rw [← hoffering, ← hbusy, hcycle]
    exact ⟨hoffers, rfl⟩
  · rintro ⟨hoffers, hsum⟩
    have hfits : s.timings.turn.nanos +
        s.timings.offerRetry.nanos * (s.offerRetryLimit.toNat + 1) < Duration.limit :=
      Nat.lt_of_le_of_lt (Nat.le_add_right _ _) (hsum ▸ cycle.bounded)
    have hoffering := Nat.lt_of_le_of_lt (Nat.le_add_left _ s.timings.turn.nanos) hfits
    exact ⟨(), ⟨hoffers, trivial⟩, ⟨_, hoffering⟩, rfl, ⟨_, hfits⟩, rfl, hsum.symm⟩

/-- **The turn cycle can be told exactly if it fits.** -/
theorem exists_turnCycle?_iff {s : Settings} :
    (∃ cycle, s.turnCycle? = some cycle) ↔ s.CycleFits := by
  simp only [turnCycle?_eq_some_iff]
  constructor
  · rintro ⟨cycle, offers, sum⟩
    exact ⟨offers, sum ▸ cycle.bounded⟩
  · rintro ⟨offers, sum⟩
    exact ⟨⟨_, sum⟩, offers, rfl⟩

/-- **The check fails exactly at the turn cycle**, once every other rule is kept. -/
theorem check_eq_error_iff {s : Settings} {e : Overflow} :
    s.check = .error e ↔ e = .turnCycle ∧ s.checkParts = .ok () ∧ ¬s.CycleFits := by
  rw [← exists_turnCycle?_iff]
  unfold check
  cases s.checkParts with
  | error broken => simp
  | ok _ =>
    cases s.turnCycle? with
    | none => simp [eq_comm]
    | some cycle =>
      dsimp only
      split <;> simp

/-- There is room for the longest delays: neither the wait for an admission nor that of a lone node
leaves the range of durations, whatever is drawn. -/
structure Roomy (s : Settings) : Prop where
  joinWait : s.timings.joinResend.nanos + s.timings.answerJitter.clockMillis * 1000000 <
    Duration.limit
  rescanWait : s.timings.watchdog.nanos + s.timings.joinResend.clockMillis * 1000000 <
    Duration.limit

end Settings

/-- What a file can say of a node leaves room. -/
theorem Deployment.roomy_settings (d : Deployment) : d.settings.Roomy := by
  have fits (a b : Nat) : (Duration.ofMillis a).nanos +
      (Duration.ofMillis b).clockMillis * 1000000 < Duration.limit := by
    have ha : min a Duration.maxMillis ≤ 18446744073709551615 := Nat.min_le_right _ _
    have hb : (Duration.ofMillis b).clockMillis ≤ 18446744073709551615 := Nat.min_le_right _ _
    rw [Duration.nanos_ofMillis, Duration.limit]
    omega
  exact ⟨fits _ _, fits _ _⟩

/-! ## Drawing a delay -/

namespace Random.Stream

/-- A number drawn from a range lies in it, also where the drawing is cut short. -/
theorem within_lt {size range zone : Nat} {word : Stream → Nat × Stream} (hrange : 0 < range)
    (hword : ∀ s, (word s).1 < size) (fuel : Nat) (s : Stream) :
    (within size range zone word fuel s).1 < range := by
  have scales (s : Stream) : (word s).1 * range / size < range := by
    rw [Nat.div_lt_iff_lt_mul (Nat.lt_of_le_of_lt (Nat.zero_le _) (hword s)), Nat.mul_comm range]
    exact Nat.mul_lt_mul_of_pos_right (hword s) hrange
  induction fuel generalizing s with
  | zero => exact scales s
  | succ fuel ih =>
    unfold within
    dsimp only
    split
    · exact scales s
    · exact ih _

/-- Two words make a number of 64 bits. -/
theorem nextWide_lt (s : Stream) : s.nextWide.1 < twoTo 64 := by
  have hlow := s.next.1.toNat_lt
  have hhigh := s.next.2.next.1.toNat_lt
  show s.next.1.toNat + twoTo 32 * s.next.2.next.1.toNat < twoTo 64
  have hwide : twoTo 64 = 18446744073709551616 := by decide
  have hword : twoTo 32 = 4294967296 := by decide
  rw [hwide, hword]
  omega

/-- **A number drawn up to a bound is not above it.** -/
theorem upTo_le (most : Nat) (s : Stream) : (s.upTo most).1 ≤ most := by
  unfold upTo
  dsimp only
  split
  · rename_i hall
    have := nextWide_lt s
    omega
  · exact Nat.lt_succ_iff.1 (within_lt (Nat.succ_pos _) nextWide_lt _ s)

/-- The random delay of whole milliseconds, up to `most`, that is drawn next. -/
def delay (s : Stream) (most : Duration) : Duration :=
  if most.clockMillis = 0 then .zero else .ofMillis (s.upTo most.clockMillis).1

/-- **A random delay is no longer than its bound**, counted in whole milliseconds. -/
theorem nanos_delay_le (s : Stream) (most : Duration) :
    (s.delay most).nanos ≤ most.clockMillis * 1000000 := by
  unfold delay
  split
  · exact Nat.zero_le _
  · exact Nat.mul_le_mul_right _ (Nat.le_trans (Nat.min_le_left _ _) (upTo_le _ s))

end Random.Stream

/-- The delay a node draws is the next one of its random numbers. -/
theorem Node.fst_jitter (n : Node) (most : Duration) : (n.jitter most).1 = n.random.delay most := by
  unfold jitter Random.Stream.delay
  split <;> rfl

/-! ## The sums of a step -/

namespace Node

/-- The delay that the node draws when it goes on alone from where it stands; a founder has drawn
the name of its network before. -/
def spread (n : Node) : Duration :=
  (if n.state = .founding then n.random.next.2 else n.random).delay n.settings.timings.joinResend

/-- **The next step of the node takes a sum that cannot be told**: it asks to be admitted, and the
wait for the answer is too long with the delay that it draws; or it goes on alone, since it founds a
network or finds nobody to offer the token to, and its wait is too long. -/
def Overflows (n : Node) : Overflow → Prop
  | .turnCycle => False
  | .joinWait => n.state = .requesting ∧ Duration.limit ≤
      n.settings.timings.joinResend.nanos + (n.random.delay n.settings.timings.answerJitter).nanos
  | .rescanWait =>
    (n.state = .founding ∨ n.state = .offering ∧ n.table.successor n.own = none) ∧
      Duration.limit ≤ n.settings.timings.watchdog.nanos + n.spread.nanos

/-- **Where there is room, no sum is too long**, whatever is drawn. -/
theorem Overflows.not_roomy {n : Node} {e : Overflow} (h : n.Overflows e) :
    ¬n.settings.Roomy := by
  intro ⟨joinWait, rescanWait⟩
  cases e with
  | turnCycle => exact h
  | joinWait =>
    have hdelay := n.random.nanos_delay_le n.settings.timings.answerJitter
    have hlong := h.2
    omega
  | rescanWait =>
    have hdelay : n.spread.nanos ≤ n.settings.timings.joinResend.clockMillis * 1000000 :=
      Random.Stream.nanos_delay_le _ _
    have hlong := h.2
    omega

/-- The wait of the node is too long, with the delay that it draws next, if it goes on alone now. -/
def RescanOverflows (n : Node) : Prop :=
  Duration.limit ≤ n.settings.timings.watchdog.nanos +
    (n.random.delay n.settings.timings.joinResend).nanos

variable {α : Type} {n : Node} {e : Overflow}

/-- **A request fails exactly if the wait for its answer cannot be told** with the delay drawn. -/
theorem request_eq_error_iff {app : α} {start : Timestamp} : n.request app start = .error e ↔
    e = .joinWait ∧ Duration.limit ≤ n.settings.timings.joinResend.nanos +
      (n.random.delay n.settings.timings.answerJitter).nanos := by
  obtain ⟨random, hj⟩ := n.snd_jitter n.settings.timings.answerJitter
  rw [← fst_jitter, ← Duration.add?_eq_none_iff]
  simp only [request, hj]
  cases n.settings.timings.joinResend.add? (n.jitter n.settings.timings.answerJitter).1 with
  | none => simp [eq_comm]
  | some wait => simp

/-- **Only the state of a lone node can fail to be entered**, if the wait there cannot be told. -/
theorem enter_eq_error_iff {now : Timestamp} : n.enter now = .error e ↔
    n.state = .alone ∧ e = .rescanWait ∧ n.RescanOverflows := by
  by_cases halone : n.state = .alone
  · obtain ⟨random, hj⟩ := n.snd_jitter n.settings.timings.joinResend
    rw [RescanOverflows, ← fst_jitter, ← Duration.add?_eq_none_iff]
    simp only [enter, halone, hj]
    cases n.settings.timings.watchdog.add? (n.jitter n.settings.timings.joinResend).1 with
    | none => simp [eq_comm]
    | some wait => simp
  · obtain ⟨n', hn'⟩ := exists_enter halone now
    simp [hn', halone]

/-- A transition fails exactly if it makes its node alone and the wait there cannot be told. -/
theorem move_eq_error_iff {t : Transition} {now : Timestamp} : n.move t now = .error e ↔
    t.next = .alone ∧ n.state ≠ .alone ∧ e = .rescanWait ∧ n.RescanOverflows := by
  obtain ⟨evictions, admissions, hm⟩ := n.fst_applyMarks t.marks
  unfold move
  generalize n.applyMarks t.marks = p at hm
  obtain ⟨marked, remarks⟩ := p
  subst hm
  dsimp only
  split
  · rename_i hstays
    exact iff_of_false nofun fun ⟨halone, hother, _⟩ => hother (hstays ▸ halone)
  · rename_i hmoves
    have hother (halone : t.next = .alone) : n.state ≠ .alone := fun hsame =>
      hmoves (halone.trans hsame.symm)
    constructor
    · intro h
      split at h
      · exact absurd h nofun
      · rename_i hentered
        obtain rfl := Except.error.inj h
        obtain ⟨halone, he, hlong⟩ := enter_eq_error_iff.1 hentered
        exact ⟨halone, hother halone, he, hlong⟩
    · rintro ⟨halone, -, he, hlong⟩
      split
      · rename_i hentered
        exact absurd (hentered.symm.trans (enter_eq_error_iff.2 ⟨halone, he, hlong⟩)) nofun
      · rename_i hentered
        rw [Except.error.inj (hentered.symm.trans (enter_eq_error_iff.2 ⟨halone, he, hlong⟩))]

/-- No rule fails but the request to be admitted. -/
theorem react_eq_error_iff [Application α] {app : α} {clock : Readings} {heard : Option Inbound} :
    n.react app clock heard = .error e ↔ n.state = .requesting ∧ e = .joinWait ∧ Duration.limit ≤
      n.settings.timings.joinResend.nanos +
        (n.random.delay n.settings.timings.answerJitter).nanos := by
  unfold react
  split
  · rename_i hs
    rw [request_eq_error_iff, hs]
    simp
  all_goals simp_all

end Node

theorem Reaction.finish_eq_error_iff {α : Type} {r : Reaction α} {taken : Bool} {now : Timestamp}
    {e : Overflow} : r.finish taken now = .error e ↔ r.transition.next = .alone ∧
      r.node.state ≠ .alone ∧ e = .rescanWait ∧ r.node.RescanOverflows :=
  Node.move_eq_error_iff

namespace Station

variable {α ρ : Type} [Application α] [Radio ρ] {s : Station α} {radio : ρ} {clock : Readings}
  {e : Overflow}

/-- A step fails if its rule does, or on the way into being alone. -/
theorem step_eq_error_iff : s.step radio clock = .error e ↔
    s.node.react s.app clock (s.hear radio clock.start).1 = .error e ∨
    ∃ r, s.node.react s.app clock (s.hear radio clock.start).1 = .ok r ∧
      r.transition.next = .alone ∧ r.node.state ≠ .alone ∧ e = .rescanWait ∧
      r.node.RescanOverflows := by
  cases hreact : s.node.react s.app clock (s.hear radio clock.start).1 with
  | error e' =>
    rw [step_of_react_error hreact]
    simp
  | ok r =>
    rw [step_of_react hreact]
    simp only [reduceCtorEq, false_or, Except.ok.injEq, exists_eq_left']
    have hfinish := @Reaction.finish_eq_error_iff α r
      (emit s.node.link (s.hear radio clock.start).2.1 r.emission).1 clock.entered e
    rw [← hfinish]
    cases r.finish (emit s.node.link (s.hear radio clock.start).2.1 r.emission).1 clock.entered with
    | error e' => simp [bind, Except.bind]
    | ok p => simp [bind, Except.bind]

/-- Whoever founds a network draws its name first. -/
theorem react_of_founding {heard : Option Inbound} (hs : s.node.state = .founding) :
    s.node.react s.app clock heard = .ok (s.node.found s.app) := by
  unfold Node.react
  rw [hs]

/-- Whoever finds nobody to offer the token to draws nothing. -/
theorem react_of_nobody {heard : Option Inbound} {session : Session}
    (hs : s.node.state = .offering) (member : s.node.session = some session)
    (nobody : s.node.table.successor s.node.own = none) :
    s.node.react s.app clock heard = .ok {
      node := { s.node with master := false, offer := none }
      app := s.app
      before := [.noPeersLeft]
      transition := .goTo .alone } := by
  unfold Node.react
  rw [hs]
  simp only [Node.offerToken, member, nobody]

/-- **A step fails exactly at a sum that cannot be told.** -/
theorem Reachable.step_eq_error_iff (h : s.Reachable) :
    s.step radio clock = .error e ↔ s.node.Overflows e := by
  have member (hs : s.node.state = .offering) : ∃ session, s.node.session = some session := by
    refine Option.isSome_iff_exists.1 (h.outside.resolve_right fun ⟨hunsettled, _⟩ => ?_)
    rw [hs] at hunsettled
    exact absurd hunsettled nofun
  rw [Station.step_eq_error_iff, Node.react_eq_error_iff]
  cases e with
  | turnCycle => simp [Node.Overflows]
  | joinWait => simp [Node.Overflows]
  | rescanWait =>
    simp only [reduceCtorEq, false_and, and_false, false_or, true_and]
    constructor
    · rintro ⟨r, hr, halone, hother, hlong⟩
      have acts := Node.acts_of_react hr
      rcases acts.of_next_alone halone with ⟨hs, -⟩ | ⟨hs, nobody, -⟩ | ⟨hs, -⟩
      · obtain rfl := Except.ok.inj ((react_of_founding hs).symm.trans hr)
        refine ⟨Or.inl hs, ?_⟩
        rwa [Node.spread, if_pos hs]
      · obtain ⟨session, hsession⟩ := member hs
        obtain rfl := Except.ok.inj ((react_of_nobody hs hsession nobody).symm.trans hr)
        refine ⟨Or.inr ⟨hs, nobody⟩, ?_⟩
        rwa [Node.spread, if_neg (by rw [hs]; nofun)]
      · exact absurd (acts.state_eq.trans hs) hother
    · rintro ⟨hs | ⟨hs, nobody⟩, hlong⟩
      · rw [Node.spread, if_pos hs] at hlong
        have hother : s.node.state ≠ .alone := by rw [hs]; nofun
        exact ⟨_, react_of_founding hs, rfl, hother, hlong⟩
      · obtain ⟨session, hsession⟩ := member hs
        rw [Node.spread, if_neg (by rw [hs]; nofun)] at hlong
        have hother : s.node.state ≠ .alone := by rw [hs]; nofun
        exact ⟨_, react_of_nobody hs hsession nobody, rfl, hother, hlong⟩

end Station

/-- **When a sum of durations cannot be told.**  The check of any settings fails exactly if they
keep every rule that stands before the turn cycle, and the cycle does not fit: then it comes to no
result, neither acceptance nor an error of the settings.  A step of a station whose settings have
been accepted, at any time of its life and on any radio and clock, fails exactly if it asks to be
admitted or goes on alone and its wait is too long with the delay that it draws.  Where there is
room for the longest delays no step fails, whatever is drawn, and the settings of a deployment have
that room. -/
theorem overflow_iff {α ρ : Type} [Application α] [Radio ρ] :
    (∀ (settings : Settings) (e : Overflow), settings.check = .error e ↔
      e = .turnCycle ∧ settings.checkParts = .ok () ∧ ¬settings.CycleFits) ∧
    (∀ s : Station α, s.Reachable → ∀ (radio : ρ) (clock : Readings) (e : Overflow),
      s.step radio clock = .error e ↔ s.node.Overflows e) ∧
    (∀ s : Station α, s.Reachable → s.node.settings.Roomy → ∀ (radio : ρ) (clock : Readings),
      ∃ p, s.step radio clock = .ok p) ∧
    ∀ d : Deployment, d.settings.Roomy := by
  refine ⟨fun _ _ => Settings.check_eq_error_iff, fun s h _ _ _ => h.step_eq_error_iff,
    fun s h roomy radio clock => ?_, Deployment.roomy_settings⟩
  cases hstep : s.step radio clock with
  | ok p => exact ⟨p, rfl⟩
  | error e => exact absurd roomy (h.step_eq_error_iff.1 hstep).not_roomy

/-- Node 1 may repeat an offer as often as a word can count. -/
def stubborn : Settings := { Station.settingsOfThree ⟨1⟩ with offerRetryLimit := 4294967295 }

/-- Node 1 waits for an admission as long as a duration can be. -/
def tireless : Settings :=
  { node := ⟨1⟩
    roster := [⟨1⟩, ⟨2⟩]
    timings := { joinResend := ⟨Duration.limit - 1, by decide⟩ } }

/-- The node that the settings describe, when it is switched on. -/
def Settings.switchedOn (s : Settings) : Station Beacon := ⟨.boot s (.ofSeed 1), { own := s.node }⟩

/-- A node with accepted settings can be switched on. -/
theorem Settings.reachable_switchedOn {s : Settings} (h : s.check = .ok (.ok ())) :
    s.switchedOn.Reachable := by
  have hboot : Station.bootWith s (.ofSeed 1) ({ own := s.node } : Beacon) =
      .ok (.ok s.switchedOn) := by
    simp only [Station.bootWith, h]
    rfl
  exact .boot hboot

/-- **Neither the check nor a step comes to a result for all settings**: a node that may repeat an
offer 2^32 - 1 times is neither accepted nor refused, and one that waits for an admission as long as
can be is accepted and fails in its first step.  Node 1 of a ring of three has room. -/
theorem overflow_of_stubborn_and_tireless :
    stubborn.check = .error .turnCycle ∧ tireless.check = .ok (.ok ()) ∧
      tireless.switchedOn.step ({} : ScriptedRadio) (.still .zero) = .error .joinWait ∧
      ∃ p, (Station.settingsOfThree ⟨1⟩).switchedOn.step ({} : ScriptedRadio) (.still .zero) =
        .ok p := by
  obtain ⟨checks, steps, roomy, -⟩ := @overflow_iff Beacon ScriptedRadio _ _
  refine ⟨(checks _ _).2 ⟨rfl, rfl, fun h => absurd h.offers (by decide +kernel)⟩, rfl,
    (steps _ (Settings.reachable_switchedOn rfl) _ _ _).2 ⟨rfl, ?_⟩,
    roomy _ (Settings.reachable_switchedOn rfl) ⟨?_, ?_⟩ _ _⟩
  all_goals decide +kernel

/-- **Not everything comes to a result**: the check has none for a node that may repeat an offer as
often as a word can count, and a node that waits for an admission as long as can be fails in its
first step. -/
theorem not_without_overflow : (¬∀ settings : Settings, ∃ r, settings.check = .ok r) ∧
    ¬∀ s : Station Beacon, s.Reachable → ∀ (radio : ScriptedRadio) (clock : Readings),
      ∃ p, s.step radio clock = .ok p := by
  constructor
  · intro all
    obtain ⟨r, hr⟩ := all stubborn
    have hcheck : stubborn.check = .error .turnCycle := rfl
    exact absurd (hcheck.symm.trans hr) nofun
  · intro all
    have reachable : tireless.switchedOn.Reachable := Settings.reachable_switchedOn rfl
    obtain ⟨p, hp⟩ := all _ reachable {} (.still .zero)
    have overflows : tireless.switchedOn.node.Overflows .joinWait := ⟨rfl, by decide +kernel⟩
    exact absurd ((reachable.step_eq_error_iff.2 overflows).symm.trans hp) nofun

end RadioRing
