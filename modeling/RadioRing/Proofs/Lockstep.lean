import RadioRing.Proofs.Acts

/-!
# Proofs/Lockstep — two nodes that differ in what nobody looks at

A state looks at few of the timers (`State.live`), and no state looks at the counters of frames
sent.  **Two stations that differ in nothing else go on in lockstep** on the same radio and clock
(`Station.Alike.course`): each step fails for both or for none, and what they hear, send, tell the
application and report is the same.  Each rule is shown to do the same to a node and to the node
with other timers and counters (`Node.varied`); what is left to see is that every timer that the
next state looks at has been looked at before, has just been set, or is armed on the way.
-/

namespace RadioRing

/-- Both computations fail in the same way, or both come to results that are related. -/
inductive Abreast {ε β γ : Type} (R : β → γ → Prop) : Except ε β → Except ε γ → Prop
  | error (e : ε) : Abreast R (.error e) (.error e)
  | ok {x : β} {y : γ} (h : R x y) : Abreast R (.ok x) (.ok y)

namespace Abreast

variable {ε β γ β' γ' : Type} {R S : β → γ → Prop} {T : β' → γ' → Prop} {x : Except ε β}
  {y : Except ε γ}

/-- Computations that go abreast do so for every weaker relation. -/
theorem mono (h : Abreast R x y) (hRS : ∀ a b, R a b → S a b) : Abreast S x y := by
  cases h with
  | error e => exact .error e
  | ok h => exact .ok (hRS _ _ h)

/-- **Computations that go abreast can be put together.** -/
theorem bind {f : β → Except ε β'} {g : γ → Except ε γ'} (h : Abreast R x y)
    (hfg : ∀ a b, R a b → Abreast T (f a) (g b)) : Abreast T (x >>= f) (y >>= g) := by
  cases h with
  | error e => exact .error e
  | ok h => exact hfg _ _ h

/-- One side goes on alone, and cannot fail any more. -/
theorem bind_left {f : β → β'} {S : β' → γ → Prop} (h : Abreast R x y)
    (hf : ∀ a b, R a b → S (f a) b) : Abreast S (x >>= fun a => .ok (f a)) y := by
  cases h with
  | error e => exact .error e
  | ok h => exact .ok (hf _ _ h)

theorem of_error {e : ε} (h : Abreast R (.error e) y) : y = .error e := by
  cases h with
  | error e => rfl

theorem of_ok {b : β} (h : Abreast R (.ok b) y) : ∃ c, y = .ok c ∧ R b c := by
  cases h with
  | ok h => exact ⟨_, rfl, h⟩

end Abreast

/-! ## The timers that a state looks at -/

/-- The timers of a node by name. -/
inductive Timer
  | turn
  | retry
  | joinResend
  | offerRetry
  | watchdog
  | reply
  | rescan
deriving DecidableEq, Repr

namespace Timers

/-- What a timer was armed for. -/
def deadline (t : Timers) : Timer → Deadline
  | .turn => t.turn
  | .retry => t.retry
  | .joinResend => t.joinResend
  | .offerRetry => t.offerRetry
  | .watchdog => t.watchdog
  | .reply => t.reply
  | .rescan => t.rescan

/-- Arms one timer. -/
def arm (t : Timers) (d : Deadline) : Timer → Timers
  | .turn => { t with turn := d }
  | .retry => { t with retry := d }
  | .joinResend => { t with joinResend := d }
  | .offerRetry => { t with offerRetry := d }
  | .watchdog => { t with watchdog := d }
  | .reply => { t with reply := d }
  | .rescan => { t with rescan := d }

/-- Arming one timer leaves every other one as it was. -/
theorem deadline_arm (t : Timers) (d : Deadline) (x y : Timer) :
    (t.arm d x).deadline y = if y = x then d else t.deadline y := by
  cases x <;> cases y <;> rfl

/-- The timers of `A` are armed for the same moments. -/
def Agree (A : Timer → Prop) (t t' : Timers) : Prop := ∀ x, A x → t'.deadline x = t.deadline x

variable {A B : Timer → Prop} {t t' : Timers}

theorem Agree.mono (h : Agree B t t') (hAB : ∀ x, A x → B x) : Agree A t t' :=
  fun x hx => h x (hAB x hx)

/-- A timer that is armed on both sides agrees from then on. -/
theorem Agree.arm (h : Agree A t t') (d : Deadline) (x : Timer) :
    Agree (fun y => A y ∨ y = x) (t.arm d x) (t'.arm d x) := by
  intro y hy
  rw [deadline_arm, deadline_arm]
  split
  · rfl
  · exact h y (hy.resolve_right ‹_›)

/-- Timers that agree on everything are equal. -/
theorem Agree.eq (h : Agree (fun _ => True) t t') : t' = t :=
  Timers.ext (h .turn trivial) (h .retry trivial) (h .joinResend trivial) (h .offerRetry trivial)
    (h .watchdog trivial) (h .reply trivial) (h .rescan trivial)

end Timers

namespace State

/-- The timers that a node in this state looks at. -/
def live : State → List Timer
  | awaitingAdmission => [.joinResend]
  | admitting _ | acknowledging .. => [.reply]
  | alone => [.rescan]
  | listening => [.watchdog]
  | awaitingEcho => [.turn, .retry]
  | repeating => [.turn]
  | awaitingTaker _ => [.offerRetry]
  | requesting | founding | accepting .. | speaking | offering => []

/-- The timers that are armed on the way into this state. -/
def armed : State → List Timer
  | admitting _ | acknowledging .. => [.reply]
  | alone => [.rescan]
  | listening => [.watchdog]
  | _ => []

/-- Whoever goes from `s` to `next` looks at no timer there that it does not look at already, or the
timers are armed on the way. -/
def Readies (s next : State) : Prop := next.live ⊆ s.live ∨ next.live = next.armed

theorem Readies.refl (s : State) : s.Readies s := Or.inl (List.Subset.refl _)

/-- The turn goes on while the payload is repeated. -/
theorem Readies.repeating : State.awaitingEcho.Readies .repeating :=
  Or.inl (List.cons_subset.2 ⟨List.mem_cons_self, List.nil_subset _⟩)

end State

/-! ## Transitions that arm nothing -/

namespace Node

/-- A state that arms nothing leaves the node as it is when it is entered. -/
theorem enter_eq_self {n : Node} (h : n.state.armed = []) (now : Timestamp) :
    n.enter now = .ok n := by
  unfold enter
  cases hs : n.state <;> rw [hs] at h <;> first | rfl | exact absurd h nofun

/-- **A transition that arms nothing** changes the table and the state, and that is all. -/
theorem move_of_unarmed {n : Node} {t : Transition} (h : t.next = n.state ∨ t.next.armed = [])
    (now : Timestamp) :
    ∃ events, n.move t now = .ok ({ (n.applyMarks t.marks).1 with state := t.next }, events) := by
  obtain ⟨e, a, hm⟩ := n.fst_applyMarks t.marks
  unfold move
  generalize n.applyMarks t.marks = p at hm ⊢
  obtain ⟨marked, remarks⟩ := p
  subst hm
  dsimp only
  by_cases hstate : t.next = n.state
  · rw [if_pos hstate, hstate]
    exact ⟨_, rfl⟩
  · rw [if_neg hstate, enter_eq_self (h.resolve_left hstate)]
    exact ⟨_, rfl⟩

end Node

/-! ## Other timers, other counters -/

/-- The counters of frames sent are counted one by one. -/
theorem Stats.credit_comm (s : Stats) (c d : Credit) :
    (s.credit c).credit d = (s.credit d).credit c := by
  cases c <;> cases d <;> rfl

/-- The node with other timers, and with one frame more in the counter that `c` names. -/
def Node.varied (n : Node) (c : Credit) (t : Timers) : Node :=
  { n with timers := t, stats := n.stats.credit c }

namespace Node

variable (n : Node) (c : Credit) (t : Timers)

@[simp] theorem settings_varied : (n.varied c t).settings = n.settings := rfl

@[simp] theorem own_varied : (n.varied c t).own = n.own := rfl

@[simp] theorem table_varied : (n.varied c t).table = n.table := rfl

@[simp] theorem state_varied : (n.varied c t).state = n.state := rfl

@[simp] theorem session_varied : (n.varied c t).session = n.session := rfl

@[simp] theorem deferred_varied : (n.varied c t).deferred = n.deferred := rfl

@[simp] theorem lastDelivered_varied : (n.varied c t).lastDelivered = n.lastDelivered := rfl

@[simp] theorem presumedDead?_varied : (n.varied c t).presumedDead? = n.presumedDead? := rfl

@[simp] theorem judge_varied (taker : Address) (m : Inbound) :
    (n.varied c t).judge taker m = n.judge taker m := rfl

end Node

/-- The reaction of such a node. -/
def Reaction.varied {α : Type} (r : Reaction α) (c : Credit) (t : Timers) : Reaction α :=
  { r with node := r.node.varied c t }

/-- Both sides take the same branch, and do the same there. -/
theorem Reaction.eq_varied_ite {α : Type} {c : Credit} {t : Timers} {p : Prop} [Decidable p]
    {a b a' b' : Reaction α} (ha : a' = a.varied c t) (hb : b' = b.varied c t) :
    (if p then a' else b') = (if p then a else b).varied c t := by
  split
  · exact ha
  · exact hb

/-- The second node is the first one with other timers and counters, and its timers in `A` agree. -/
structure Node.Agrees (c : Credit) (A : Timer → Prop) (n n' : Node) : Prop where
  eq : n' = n.varied c n'.timers
  agree : n.timers.Agree A n'.timers

/-- The reactions are the same up to other timers and counters, and the timers of `A` and those that
the next state looks at agree, unless they are armed on the way. -/
structure Reaction.Agrees {α : Type} (c : Credit) (A : Timer → Prop) (r r' : Reaction α) :
    Prop where
  eq : r' = r.varied c r'.node.timers
  agree : r.node.timers.Agree (fun x => (A x ∨ x ∈ r.transition.next.live) ∧
    ¬(r.transition.next ≠ r.node.state ∧ x ∈ r.transition.next.armed)) r'.node.timers

namespace Node

variable {α : Type} {A : Timer → Prop} {n : Node} {c : Credit} {t : Timers}

/-! ### What a rule makes of a message -/

/-- What a delay is drawn from is neither a timer nor a counter. -/
theorem jitter_varied (n : Node) (c : Credit) (t : Timers) (most : Duration) :
    (n.varied c t).jitter most = ((n.jitter most).1, (n.jitter most).2.varied c t) := by
  unfold jitter
  split <;> rfl

theorem putAside_varied (n : Node) (c : Credit) (t : Timers) (m : Inbound) :
    (n.varied c t).putAside m = ((n.putAside m).1.varied c t, (n.putAside m).2) := by
  cases hd : n.deferred with
  | none =>
    simp only [putAside, deferred_varied, hd]
    rfl
  | some _ =>
    simp only [putAside, deferred_varied, hd]
    cases c <;> rfl

theorem takePayload_varied [Application α] (n : Node) (c : Credit) (t : Timers) (app : α)
    (sender : Address) (body : Bytes) (repeated : Bool) :
    (n.varied c t).takePayload app sender body repeated =
      ((n.takePayload app sender body repeated).1.varied c t,
        (n.takePayload app sender body repeated).2) := by
  simp only [takePayload, lastDelivered_varied]
  by_cases h : repeated = true ∧ n.lastDelivered = some (sender, body)
  · simp only [h, and_self, if_true]
  · simp only [h, if_false]
    rcases Application.unwrap app body with ⟨_ | payload, app'⟩ <;> rfl

/-- **What a listener makes of a message depends on no timer and on no counter.** -/
theorem hearAsListener_varied [Application α] (n : Node) (c : Credit) (t : Timers) (app : α)
    (m : Inbound) :
    (n.varied c t).hearAsListener app m = (n.hearAsListener app m).varied c t := by
  have payload (body : Bytes) (repeated : Bool) : (n.varied c t).hearPayload app m body repeated =
      (n.hearPayload app m body repeated).varied c t :=
    congrArg (fun p : Node × α × List Event =>
        ({ node := p.1, app := p.2.1, before := p.2.2, transition :=
          (Transition.goTo (.acknowledging m.sender m.raw)).withMarks (n.readmission m) } :
          Reaction α))
      (takePayload_varied { n with presumedHolder := some m.sender } c t app m.sender body repeated)
  unfold hearAsListener
  cases m.message with
  | data round body => exact payload body false
  | retry round body => exact payload body true
  | ack echo => rfl
  | turn target session round =>
    exact Reaction.eq_varied_ite (Reaction.eq_varied_ite rfl rfl)
      (Reaction.eq_varied_ite rfl (Reaction.eq_varied_ite rfl rfl))
  | joinRequest joiner => exact Reaction.eq_varied_ite rfl rfl
  | joinAck target session round handsOver members => exact Reaction.eq_varied_ite rfl rfl

theorem hearAlone_varied (n : Node) (c : Credit) (t : Timers) (app : α) (m : Inbound) :
    (n.varied c t).hearAlone app m = (n.hearAlone app m).varied c t := by
  unfold hearAlone
  cases m.message with
  | turn target session round =>
    exact Reaction.eq_varied_ite rfl (Reaction.eq_varied_ite rfl rfl)
  | _ => rfl

theorem hearAsHolder_varied (n : Node) (c : Credit) (t : Timers) (app : α) (m : Inbound) :
    (n.varied c t).hearAsHolder app m = (n.hearAsHolder app m).varied c t := by
  have yields : (n.varied c t).yieldTo app m = (n.yieldTo app m).varied c t := by
    cases c <;> rfl
  have counted : { n.varied c t with
      stats.payloadsEchoed := (n.varied c t).stats.payloadsEchoed + 1 } =
      ({ n with stats.payloadsEchoed := n.stats.payloadsEchoed + 1 } : Node).varied c t := by
    cases c <;> rfl
  unfold hearAsHolder
  cases m.message with
  | data round body | retry round body => exact Reaction.eq_varied_ite yields rfl
  | ack echo =>
    refine Reaction.eq_varied_ite rfl (Reaction.eq_varied_ite ?_ (Reaction.eq_varied_ite rfl rfl))
    dsimp only
    rw [counted]
    rfl
  | turn target session round =>
    exact Reaction.eq_varied_ite rfl
      (Reaction.eq_varied_ite rfl (Reaction.eq_varied_ite yields rfl))
  | joinRequest | joinAck => rfl

theorem hearAsGiver_varied (n : Node) (c : Credit) (t : Timers) (app : α) (taker : Address)
    (m : Inbound) : (n.varied c t).hearAsGiver app taker m =
      (n.hearAsGiver app taker m).varied c t := by
  unfold hearAsGiver
  rw [judge_varied]
  cases n.judge taker m with
  | pending | outdated => rfl
  | acknowledged | superseded => cases c <;> rfl

/-! ### What a message leads to -/

variable {n' : Node} {m : Inbound} {e : Option Emission} {tr : Transition}

/-- No message moves a timer of a listener, and wherever it goes next, the timers looked at there
are armed on the way. -/
theorem ListenerHears.keeps (h : n.ListenerHears m n' e tr) :
    n'.state = n.state ∧ n'.timers = n.timers ∧ tr.next.live = tr.next.armed := by
  cases h <;> exact ⟨rfl, rfl, rfl⟩

theorem LoneHears.keeps (h : n.LoneHears m n' e tr) :
    n'.state = n.state ∧ n'.timers = n.timers ∧ tr.next.live = tr.next.armed := by
  cases h <;> exact ⟨rfl, rfl, rfl⟩

/-- A holder goes on with the timers it looks at already, or they are armed on the way. -/
theorem HolderHears.keeps (h : n.HolderHears m n' e tr) :
    n'.state = n.state ∧ n'.timers = n.timers ∧ State.awaitingEcho.Readies tr.next := by
  cases h with
  | stays | offered => exact ⟨rfl, rfl, .refl _⟩
  | garbled => exact ⟨rfl, rfl, .repeating⟩
  | echoed | yields => exact ⟨rfl, rfl, Or.inr rfl⟩

/-- A giver goes on with the timers it looks at already, or they are armed on the way. -/
theorem GiverHears.keeps {taker : Address} (h : n.GiverHears taker m n' e tr) :
    n'.state = n.state ∧ n'.timers = n.timers ∧ (State.awaitingTaker taker).Readies tr.next := by
  cases h with
  | waits | releases => exact ⟨rfl, rfl, .refl _⟩
  | handsOff | drops => exact ⟨rfl, rfl, Or.inr rfl⟩

end Node

namespace Reaction

variable {α : Type} {A B : Timer → Prop} {r : Reaction α} {n : Node} {c : Credit} {t : Timers}

/-- The timers that the next state looks at agree already, or they are armed on the way. -/
theorem agrees (h : r.node.timers.Agree B t) (hB : ∀ x, A x ∨ x ∈ r.node.state.live → B x)
    (ready : (∀ x ∈ r.transition.next.live, B x) ∨
      r.transition.next.live = r.transition.next.armed) : r.Agrees c A (r.varied c t) := by
  refine ⟨rfl, h.mono fun x ⟨hx, hunarmed⟩ => ?_⟩
  rcases hx with hx | hlive
  · exact hB x (Or.inl hx)
  · by_cases hnext : r.transition.next = r.node.state
    · exact hB x (Or.inr (hnext ▸ hlive))
    · exact ready.elim (· x hlive) fun harmed => absurd ⟨hnext, harmed ▸ hlive⟩ hunarmed

/-- A rule that arms no timer. -/
theorem agrees_of_keeps (h : n.timers.Agree (fun x => A x ∨ x ∈ n.state.live) t)
    (state : r.node.state = n.state) (timers : r.node.timers = n.timers)
    (ready : n.state.Readies r.transition.next) : r.Agrees c A (r.varied c t) :=
  agrees (timers ▸ h) (state ▸ fun _ => id) (ready.imp_left fun hsub _ hx => Or.inr (hsub hx))

/-- A rule that arms one timer. -/
theorem agrees_of_arms (h : n.timers.Agree (fun x => A x ∨ x ∈ n.state.live) t) (d : Deadline)
    (x : Timer) (state : r.node.state = n.state) (timers : r.node.timers = n.timers.arm d x)
    (ready : r.transition.next.live ⊆ x :: n.state.live ∨
      r.transition.next.live = r.transition.next.armed) :
    r.Agrees c A (r.varied c (t.arm d x)) := by
  refine agrees (timers ▸ h.arm d x) (state ▸ fun _ => Or.inl) (ready.imp_left fun hsub y hy => ?_)
  exact (List.mem_cons.1 (hsub hy)).elim Or.inr fun hlive => Or.inl (Or.inr hlive)

/-- Both sides take the same branch. -/
theorem Agrees.ite {p : Prop} [Decidable p] {a b a' b' : Reaction α} (ha : p → a.Agrees c A a')
    (hb : ¬p → b.Agrees c A b') : (if p then a else b).Agrees c A (if p then a' else b') := by
  split
  · exact ha ‹_›
  · exact hb ‹_›

end Reaction

namespace Node

variable {α : Type} {A : Timer → Prop} {n : Node} {c : Credit} {t : Timers} {app : α}
  {start : Timestamp} {heard : Option Inbound}

/-! ### State by state -/

section Rules

variable (h : n.timers.Agree (fun x => A x ∨ x ∈ n.state.live) t)

include h

/-- A request looks at no timer; it fails for both nodes or for none. -/
theorem agrees_request :
    Abreast (Reaction.Agrees c A) (n.request app start) ((n.varied c t).request app start) := by
  obtain ⟨random, hj⟩ := n.snd_jitter n.settings.timings.answerJitter
  simp only [request, settings_varied, jitter_varied, hj]
  cases n.settings.timings.joinResend.add? (n.jitter n.settings.timings.answerJitter).1 with
  | none => exact .error _
  | some wait =>
    exact .ok (Reaction.agrees_of_arms h _ .joinResend rfl rfl
      (Or.inl (List.cons_subset_cons _ (List.nil_subset _))))

/-- A node that has asked looks at the time for its next request. -/
theorem agrees_awaitAdmission (hs : n.state = .awaitingAdmission) :
    (n.awaitAdmission app start heard).Agrees c A
      ((n.varied c t).awaitAdmission app start heard) := by
  have hd : (n.varied c t).timers.joinResend = n.timers.joinResend :=
    h .joinResend (Or.inr (hs ▸ List.mem_singleton_self _))
  have stays : n.state.Readies .awaitingAdmission := hs ▸ .refl _
  unfold awaitAdmission
  rw [hd]
  refine .ite (fun _ => .ite (fun _ => ?_) fun _ => ?_) fun _ => ?_
  · exact Reaction.agrees_of_keeps h rfl rfl (Or.inr rfl)
  · exact Reaction.agrees_of_keeps h rfl rfl (Or.inr rfl)
  · rcases heard with _ | ⟨sender, dest, message, raw⟩
    · exact Reaction.agrees_of_keeps h rfl rfl stays
    · cases message with
      | joinAck target session round handsOver members =>
        refine .ite (fun _ => Reaction.agrees_of_keeps h rfl rfl stays) fun _ => ?_
        cases handsOver <;> exact Reaction.agrees_of_keeps h rfl rfl (Or.inr rfl)
      | _ => exact Reaction.agrees_of_keeps h rfl rfl stays

theorem agrees_found : (n.found app).Agrees c A ((n.varied c t).found app) :=
  Reaction.agrees_of_keeps h rfl rfl (Or.inr rfl)

/-- A node that waits for the moment to answer puts aside what it hears. -/
theorem agrees_putAside (m : Inbound) {s : State} (hs : n.state = s) : Reaction.Agrees c A
      { node := (n.putAside m).1, app, before := (n.putAside m).2, transition := .goTo s }
      { node := ((n.varied c t).putAside m).1, app, before := ((n.varied c t).putAside m).2
        transition := .goTo s } := by
  rw [putAside_varied]
  obtain ⟨deferred, dropped, hput, -⟩ := n.fst_putAside m
  have hstate : (n.putAside m).1.state = n.state := by rw [hput]
  have htimers : (n.putAside m).1.timers = n.timers := by rw [hput]
  exact Reaction.agrees_of_keeps h hstate htimers (hs ▸ .refl _)

theorem agrees_admitting {joiner : Address} (hs : n.state = .admitting joiner) :
    (n.admitting app joiner start heard).Agrees c A
      ((n.varied c t).admitting app joiner start heard) := by
  have hd : (n.varied c t).timers.reply = n.timers.reply :=
    h .reply (Or.inr (hs ▸ List.mem_singleton_self _))
  unfold admitting
  rw [hd, session_varied]
  refine .ite (fun _ => ?_) fun _ => ?_
  · cases heard with
    | none => exact Reaction.agrees_of_keeps h rfl rfl (hs ▸ .refl _)
    | some m => exact agrees_putAside h m hs
  · cases n.session with
    | none => exact Reaction.agrees_of_keeps h rfl rfl (Or.inr rfl)
    | some session =>
      -- Whether the token comes with the answer is the same on both sides.
      dsimp only
      rw [table_varied, own_varied]
      cases n.table.anyBesides [n.own, joiner] <;>
        exact Reaction.agrees_of_keeps h rfl rfl (Or.inr rfl)

theorem agrees_waitAlone (hs : n.state = .alone) : (n.waitAlone app start heard).Agrees c A
      ((n.varied c t).waitAlone app start heard) := by
  have hd : (n.varied c t).timers.rescan = n.timers.rescan :=
    h .rescan (Or.inr (hs ▸ List.mem_singleton_self _))
  unfold waitAlone
  rw [hd]
  refine .ite (fun _ => Reaction.agrees_of_keeps h rfl rfl (Or.inr rfl)) fun _ => ?_
  cases heard with
  | none => exact Reaction.agrees_of_keeps h rfl rfl (Or.inr rfl)
  | some m =>
    obtain ⟨hstate, htimers, hready⟩ := (n.loneHears app m).keeps
    dsimp only
    rw [hearAlone_varied]
    exact Reaction.agrees_of_keeps h hstate htimers (Or.inr hready)

theorem agrees_fireWatchdog :
    (n.fireWatchdog app start).Agrees c A ((n.varied c t).fireWatchdog app start) := by
  have hfires : { n.varied c t with
      stats.watchdogFires := (n.varied c t).stats.watchdogFires + 1 } =
      ({ n with stats.watchdogFires := n.stats.watchdogFires + 1 } : Node).varied c t := by
    cases c <;> rfl
  unfold fireWatchdog
  rw [hfires]
  generalize hn₁ : ({ n with stats.watchdogFires := n.stats.watchdogFires + 1 } : Node) = n₁
  have h : n₁.timers.Agree (fun x => A x ∨ x ∈ n₁.state.live) t := hn₁ ▸ h
  have claims (dead : Address) : (fireWatchdog.claimAfter app n₁ dead).Agrees c A
      (fireWatchdog.claimAfter app (n₁.varied c t) dead) :=
    Reaction.agrees_of_keeps h rfl rfl (Or.inr rfl)
  dsimp only
  rw [presumedDead?_varied, table_varied]
  cases n₁.presumedDead? with
  | none => exact Reaction.agrees_of_keeps h rfl rfl (Or.inr rfl)
  | some dead =>
    dsimp only
    cases n₁.table.successor dead with
    | none => exact claims dead
    | some next =>
      refine .ite (fun _ => ?_) fun _ => claims dead
      exact Reaction.agrees_of_arms h _ .watchdog rfl rfl (Or.inr rfl)

/-- A listener looks at its watchdog. -/
theorem agrees_listen [Application α] {clock : Readings} (hs : n.state = .listening) :
    (n.listen app clock heard).Agrees c A ((n.varied c t).listen app clock heard) := by
  have hd : (n.varied c t).timers.watchdog = n.timers.watchdog :=
    h .watchdog (Or.inr (hs ▸ List.mem_singleton_self _))
  unfold listen
  rw [hd, deferred_varied]
  refine .ite (fun _ => agrees_fireWatchdog h) fun _ => ?_
  cases n.deferred.or heard with
  | none => exact Reaction.agrees_of_keeps h rfl rfl (hs ▸ .refl _)
  | some m =>
    -- The watchdog starts anew on both sides, and then both look at the message.
    obtain ⟨hstate, htimers, hready⟩ := (listenerHears (n.awake clock.heard) app m).keeps
    change Reaction.Agrees c A _ (((n.awake clock.heard).varied c
      (t.arm (.after clock.heard n.settings.timings.watchdog) .watchdog)).hearAsListener app m)
    rw [hearAsListener_varied]
    exact Reaction.agrees_of_arms h _ .watchdog hstate htimers (Or.inr hready)

theorem agrees_acknowledge {holder : Address} {echo : Bytes}
    (hs : n.state = .acknowledging holder echo) :
    (n.acknowledge app holder echo start heard).Agrees c A
      ((n.varied c t).acknowledge app holder echo start heard) := by
  have hd : (n.varied c t).timers.reply = n.timers.reply :=
    h .reply (Or.inr (hs ▸ List.mem_singleton_self _))
  unfold acknowledge
  rw [hd]
  refine .ite (fun _ => ?_) fun _ => Reaction.agrees_of_keeps h rfl rfl (Or.inr rfl)
  cases heard with
  | none => exact Reaction.agrees_of_keeps h rfl rfl (hs ▸ .refl _)
  | some m => exact agrees_putAside h m hs

theorem agrees_acceptToken {giver : Address} {echo : Bytes} :
    (n.acceptToken app giver echo).Agrees c A ((n.varied c t).acceptToken app giver echo) :=
  Reaction.agrees_of_keeps h rfl rfl (Or.inr rfl)

/-- A turn arms its end and the first repetition, the two timers that the holder looks at next. -/
theorem agrees_speak [Application α] :
    (n.speak app start).Agrees c A ((n.varied c t).speak app start) := by
  have harm := (h.arm (.after start n.settings.timings.turn) .turn).arm
    (.after start n.settings.timings.retry) .retry
  have hr : (n.varied c t).speak app start = (n.speak app start).varied c
      ((t.arm (.after start n.settings.timings.turn) .turn).arm
        (.after start n.settings.timings.retry) .retry) := by
    cases c <;> rfl
  rw [hr]
  refine Reaction.agrees harm (fun x hx => Or.inl (Or.inl hx)) (Or.inl fun x hx => ?_)
  rcases List.mem_cons.1 hx with rfl | hx
  · exact Or.inl (Or.inr rfl)
  · exact Or.inr (List.mem_singleton.1 hx)

/-- A holder looks at the end of its turn first, and then at the time to repeat. -/
theorem agrees_awaitEcho (hs : n.state = .awaitingEcho) :
    (n.awaitEcho app start heard).Agrees c A ((n.varied c t).awaitEcho app start heard) := by
  have ht : (n.varied c t).timers.turn = n.timers.turn :=
    h .turn (Or.inr (hs ▸ List.mem_cons_self))
  have hd : (n.varied c t).timers.retry = n.timers.retry :=
    h .retry (Or.inr (hs ▸ List.mem_cons_of_mem _ List.mem_cons_self))
  unfold awaitEcho
  rw [ht, hd]
  refine .ite (fun _ => ?_) fun _ => .ite (fun _ => ?_) fun _ => ?_
  · exact Reaction.agrees_of_keeps h rfl rfl (Or.inr rfl)
  · exact Reaction.agrees_of_keeps h rfl rfl (hs ▸ .repeating)
  · cases heard with
    | none => exact Reaction.agrees_of_keeps h rfl rfl (hs ▸ .refl _)
    | some m =>
      obtain ⟨hstate, htimers, hready⟩ := (n.holderHears app m).keeps
      dsimp only
      rw [hearAsHolder_varied]
      exact Reaction.agrees_of_keeps h hstate htimers (hs ▸ hready)

theorem agrees_repeatPayload (hs : n.state = .repeating) :
    (n.repeatPayload app start).Agrees c A ((n.varied c t).repeatPayload app start) := by
  have ht : (n.varied c t).timers.turn = n.timers.turn :=
    h .turn (Or.inr (hs ▸ List.mem_cons_self))
  unfold repeatPayload
  rw [ht]
  refine .ite (fun _ => Reaction.agrees_of_keeps h rfl rfl (Or.inr rfl)) fun _ => ?_
  exact Reaction.agrees_of_arms h _ .retry rfl rfl (Or.inl (by simp [hs, State.live]))

theorem agrees_offerToken :
    (n.offerToken app start).Agrees c A ((n.varied c t).offerToken app start) := by
  unfold offerToken
  rw [session_varied, table_varied, own_varied]
  cases n.session with
  | none => exact Reaction.agrees_of_keeps h rfl rfl (Or.inr rfl)
  | some session =>
    dsimp only
    cases n.table.successor n.own with
    | none => exact Reaction.agrees_of_keeps h rfl rfl (Or.inr rfl)
    | some taker =>
      exact Reaction.agrees_of_arms h _ .offerRetry rfl rfl
        (Or.inl (List.cons_subset_cons _ (List.nil_subset _)))

/-- A giver looks at the time for its next offer. -/
theorem agrees_awaitTaker {taker : Address} (hs : n.state = .awaitingTaker taker) :
    (n.awaitTaker app taker start heard).Agrees c A
      ((n.varied c t).awaitTaker app taker start heard) := by
  have hd : (n.varied c t).timers.offerRetry = n.timers.offerRetry :=
    h .offerRetry (Or.inr (hs ▸ List.mem_singleton_self _))
  unfold awaitTaker
  rw [hd]
  refine .ite (fun _ => .ite (fun _ => ?_) fun _ => ?_) fun _ => ?_
  · exact Reaction.agrees_of_keeps h rfl rfl (Or.inr rfl)
  · exact Reaction.agrees_of_arms h _ .offerRetry rfl rfl
      (Or.inl (List.cons_subset_cons _ (List.nil_subset _)))
  · cases heard with
    | none => exact Reaction.agrees_of_keeps h rfl rfl (hs ▸ .refl _)
    | some m =>
      obtain ⟨hstate, htimers, hready⟩ := (n.giverHears app taker m).keeps
      dsimp only
      rw [hearAsGiver_varied]
      exact Reaction.agrees_of_keeps h hstate htimers (hs ▸ hready)

/-- **Every rule does the same to both nodes.** -/
theorem agrees_react [Application α] {clock : Readings} : Abreast (Reaction.Agrees c A)
    (n.react app clock heard) ((n.varied c t).react app clock heard) := by
  unfold react
  rw [state_varied]
  cases hs : n.state with
  | requesting => exact agrees_request h
  | awaitingAdmission => exact .ok (agrees_awaitAdmission h hs)
  | founding => exact .ok (agrees_found h)
  | admitting joiner => exact .ok (agrees_admitting h hs)
  | alone => exact .ok (agrees_waitAlone h hs)
  | listening => exact .ok (agrees_listen h hs)
  | acknowledging holder echo => exact .ok (agrees_acknowledge h hs)
  | accepting giver echo => exact .ok (agrees_acceptToken h)
  | speaking => exact .ok (agrees_speak h)
  | awaitingEcho => exact .ok (agrees_awaitEcho h hs)
  | repeating => exact .ok (agrees_repeatPayload h hs)
  | offering => exact .ok (agrees_offerToken h)
  | awaitingTaker taker => exact .ok (agrees_awaitTaker h hs)

/-- Both nodes wait for a packet equally long. -/
theorem patience_varied (now : Timestamp) : (n.varied c t).patience now = n.patience now := by
  have live (x : Timer) (hx : x ∈ n.state.live) : t.deadline x = n.timers.deadline x :=
    h x (Or.inr hx)
  have hawaited : (n.varied c t).awaited? = n.awaited? := by
    unfold awaited?
    rw [state_varied]
    cases hs : n.state with
    | awaitingAdmission => exact congrArg some (live .joinResend (hs ▸ List.mem_singleton_self _))
    | admitting | acknowledging =>
      exact congrArg some (live .reply (hs ▸ List.mem_singleton_self _))
    | alone => exact congrArg some (live .rescan (hs ▸ List.mem_singleton_self _))
    | listening => exact congrArg some (live .watchdog (hs ▸ List.mem_singleton_self _))
    | awaitingEcho =>
      have hretry := live .retry (hs ▸ List.mem_cons_of_mem _ List.mem_cons_self)
      have hturn := live .turn (hs ▸ List.mem_cons_self)
      exact congrArg some (congr (congrArg Deadline.earlier hretry) hturn)
    | awaitingTaker => exact congrArg some (live .offerRetry (hs ▸ List.mem_singleton_self _))
    | _ => rfl
  unfold patience listensUntil?
  rw [hawaited]
  rfl

end Rules

/-! ### The end of a step -/

variable {B : Timer → Prop}

/-- A mark is news or not, whatever the timers and the counters show. -/
theorem applyMark_varied (n : Node) (c : Credit) (t : Timers) (m : Mark) :
    (n.varied c t).applyMark m = ((n.applyMark m).1.varied c t, (n.applyMark m).2) := by
  unfold applyMark
  rw [table_varied, own_varied]
  split
  · rfl
  · split <;> cases c <;> rfl

theorem applyMarks_varied (c : Credit) (t : Timers) (marks : List Mark) : ∀ n : Node,
    (n.varied c t).applyMarks marks =
      ((n.applyMarks marks).1.varied c t, (n.applyMarks marks).2) := by
  induction marks with
  | nil => exact fun _ => rfl
  | cons m rest ih =>
    intro n
    simp only [applyMarks, applyMark_varied, ih]

/-- The timers that are armed on the way into a state agree afterwards. -/
theorem agrees_enter (h : n.timers.Agree B t) (now : Timestamp) :
    Abreast (fun m m' => m.state = n.state ∧ m.Agrees c (fun x => B x ∨ x ∈ n.state.armed) m')
      (n.enter now) ((n.varied c t).enter now) := by
  have arms (d : Deadline) (x : Timer) : (n.timers.arm d x).Agree (fun y => B y ∨ y ∈ [x])
      (t.arm d x) := (h.arm d x).mono fun y => Or.imp_right List.mem_singleton.1
  have none : n.timers.Agree (fun x => B x ∨ x ∈ []) t :=
    h.mono fun x hx => hx.resolve_right List.not_mem_nil
  unfold enter
  rw [state_varied, settings_varied]
  cases hs : n.state with
  | listening => exact .ok ⟨rfl, rfl, arms _ .watchdog⟩
  | alone =>
    dsimp only
    rw [jitter_varied]
    obtain ⟨random, hj⟩ := n.snd_jitter n.settings.timings.joinResend
    simp only [hj]
    cases n.settings.timings.watchdog.add? (n.jitter n.settings.timings.joinResend).1 with
    | none => exact .error _
    | some wait => exact .ok ⟨hs, rfl, arms _ .rescan⟩
  | acknowledging holder echo =>
    dsimp only
    rw [jitter_varied]
    obtain ⟨random, hj⟩ := n.snd_jitter n.settings.timings.answerJitter
    simp only [hj]
    exact .ok ⟨hs, rfl, arms _ .reply⟩
  | admitting joiner =>
    dsimp only
    rw [jitter_varied, table_varied, own_varied]
    obtain ⟨random, hj⟩ := n.snd_jitter n.settings.timings.answerJitter
    simp only [hj]
    split
    · exact .ok ⟨hs, rfl, arms _ .reply⟩
    · exact .ok ⟨rfl, rfl, arms _ .reply⟩
  | _ => exact .ok ⟨hs, rfl, none⟩

/-- **A transition changes both nodes in the same way**, and arms what the next state looks at. -/
theorem agrees_move (tr : Transition) (h : n.timers.Agree
      (fun x => B x ∧ ¬(tr.next ≠ n.state ∧ x ∈ tr.next.armed)) t) (now : Timestamp) :
    Abreast (fun p p' => p.1.state = tr.next ∧ p.1.Agrees c B p'.1 ∧ p'.2 = p.2)
      (n.move tr now) ((n.varied c t).move tr now) := by
  obtain ⟨evictions, admissions, hm⟩ := n.fst_applyMarks tr.marks
  unfold move
  rw [applyMarks_varied]
  generalize n.applyMarks tr.marks = p at hm
  obtain ⟨marked, remarks⟩ := p
  dsimp only at hm
  have hstate : marked.state = n.state := by rw [hm]
  have htimers : marked.timers = n.timers := by rw [hm]
  rw [← hstate, ← htimers] at h
  dsimp only
  rw [state_varied]
  by_cases hnext : tr.next = marked.state
  · -- A state that is not left is not entered either, so nothing is armed.
    rw [if_pos hnext, if_pos hnext]
    exact .ok ⟨hnext.symm, ⟨rfl, h.mono fun x hx => ⟨hx, fun harmed => harmed.1 hnext⟩⟩, rfl⟩
  · rw [if_neg hnext, if_neg hnext]
    have hentered := agrees_enter (n := { marked with state := tr.next }) (c := c) h now
    have hvaried : { marked.varied c t with state := tr.next } =
      ({ marked with state := tr.next } : Node).varied c t := rfl
    rw [hvaried]
    generalize ({ marked with state := tr.next } : Node).enter now = x at hentered ⊢
    generalize (({ marked with state := tr.next } : Node).varied c t).enter now = y at hentered ⊢
    cases hentered with
    | error => exact .error _
    | ok hm =>
      obtain ⟨hnew, heq, hagree⟩ := hm
      refine .ok ⟨hnew, ⟨heq, hagree.mono fun x hx => ?_⟩, rfl⟩
      by_cases harmed : x ∈ tr.next.armed
      · exact Or.inr harmed
      · exact Or.inl ⟨hx, fun h => harmed h.2⟩

end Node

/-- A counter that is ahead stays ahead by as much when a frame is booked. -/
theorem Reaction.booked_varied {α : Type} (r : Reaction α) (c : Credit) (t : Timers)
    (taken : Bool) : (r.varied c t).booked taken = (r.booked taken).credit c := by
  cases taken with
  | false => rfl
  | true => exact r.node.stats.credit_comm c r.credit

/-- **The step ends in the same way for both.** -/
theorem Reaction.Agrees.finish {α : Type} {c : Credit} {A : Timer → Prop} {r r' : Reaction α}
    (h : r.Agrees c A r') (taken : Bool) (now : Timestamp) :
    Abreast (fun p p' => p.1.Agrees c (fun x => A x ∨ x ∈ p.1.state.live) p'.1 ∧ p'.2 = p.2)
      (r.finish taken now) (r'.finish taken now) := by
  obtain ⟨heq, hagree⟩ := h
  generalize r'.node.timers = t at heq hagree
  subst heq
  have hnode : { (r.varied c t).node with stats := (r.varied c t).booked taken } =
      ({ r.node with stats := r.booked taken } : Node).varied c t := by
    rw [booked_varied]
    rfl
  have hends : (r.varied c t).finish taken now =
      (({ r.node with stats := r.booked taken } : Node).varied c t).move r.transition now :=
    congrArg (Node.move · r.transition now) hnode
  rw [hends]
  have hmoves := Node.agrees_move (n := { r.node with stats := r.booked taken }) (c := c)
    r.transition hagree now
  exact hmoves.mono fun p p' ⟨hstate, hagrees, hevents⟩ => ⟨hstate ▸ hagrees, hevents⟩

/-! ## Two stations -/

namespace Station

variable {α ρ : Type} {c : Credit} {A : Timer → Prop} {s s' : Station α}

/-- The second station is the first one with other timers and counters; the timers of `A` agree, and
so do those that the station looks at. -/
structure Alike (c : Credit) (A : Timer → Prop) (s s' : Station α) : Prop where
  app : s'.app = s.app
  node : s.node.Agrees c (fun x => A x ∨ x ∈ s.node.state.live) s'.node

/-- What a station does step by step at the given readings of the clock. -/
def course [Radio ρ] [Application α] (s : Station α) (radio : ρ) :
    List Readings → Except Overflow (Station α × ρ × List Event)
  | [] => .ok (s, radio, [])
  | clock :: rest => do
    let (s, radio, events) ← s.step radio clock
    let (s, radio, more) ← s.course radio rest
    return (s, radio, events ++ more)

/-- **Two such stations listen alike**, at the same times and as long. -/
theorem Alike.hear [Radio ρ] (h : s.Alike c A s') (radio : ρ) (now : Timestamp) :
    s'.hear radio now = s.hear radio now := by
  obtain ⟨-, heq, hagree⟩ := h
  have hpatience : s'.node.patience now = s.node.patience now := by
    rw [heq]
    exact Node.patience_varied hagree now
  have hlink : s'.node.link = s.node.link := by
    rw [heq]
    rfl
  rw [Station.hear_eq, Station.hear_eq, hpatience, hlink]

variable [Application α]

/-- **Two such stations take the same step**, on any radio and at any time. -/
theorem Alike.step [Radio ρ] (h : s.Alike c A s') (radio : ρ) (clock : Readings) :
    Abreast (fun p p' => p.1.Alike c A p'.1 ∧ p'.2 = p.2) (s.step radio clock)
      (s'.step radio clock) := by
  have hhear := h.hear radio clock.start
  obtain ⟨happ, heq, hagree⟩ := h
  have hreact : Abreast (Reaction.Agrees c A)
      (s.node.react s.app clock (s.hear radio clock.start).1)
      (s'.node.react s'.app clock (s.hear radio clock.start).1) := by
    rw [happ, heq]
    exact Node.agrees_react hagree
  have hlink : s'.node.link = s.node.link := by
    rw [heq]
    rfl
  unfold Station.step
  rw [hhear, hlink]
  refine hreact.bind fun r r' hr => ?_
  obtain ⟨hr', -⟩ := id hr
  have hemission : r'.emission = r.emission := by rw [hr']; rfl
  have happ' : r'.app = r.app := by rw [hr']; rfl
  have hbefore : r'.before = r.before := by rw [hr']; rfl
  have hafter : r'.after = r.after := by rw [hr']; rfl
  rw [hemission, happ', hbefore, hafter]
  refine (hr.finish _ clock.entered).bind fun p p' ⟨hnode, hmoved⟩ => ?_
  obtain ⟨n, moved⟩ := p
  obtain ⟨n', moved'⟩ := p'
  obtain rfl : moved' = moved := hmoved
  exact .ok ⟨⟨rfl, hnode⟩, rfl⟩

/-- **Two such stations go on in lockstep.** -/
theorem Alike.course [Radio ρ] (clocks : List Readings) : ∀ {s s' : Station α} (radio : ρ),
    s.Alike c A s' → Abreast (fun p p' => p.1.Alike c A p'.1 ∧ p'.2 = p.2) (s.course radio clocks)
      (s'.course radio clocks) := by
  induction clocks with
  | nil => exact fun radio h => .ok ⟨h, rfl⟩
  | cons clock rest ih =>
    intro s s' radio h
    unfold Station.course
    refine (h.step radio clock).bind fun p p' ⟨hs, hsame⟩ => ?_
    obtain ⟨t, radio₁, events⟩ := p
    obtain ⟨t', same⟩ := p'
    obtain rfl : same = (radio₁, events) := hsame
    refine (ih radio₁ hs).bind fun q q' ⟨ht, hsame⟩ => ?_
    obtain ⟨u, radio₂, more⟩ := q
    obtain ⟨u', same⟩ := q'
    obtain rfl : same = (radio₂, more) := hsame
    exact .ok ⟨ht, rfl⟩

end Station

end RadioRing
