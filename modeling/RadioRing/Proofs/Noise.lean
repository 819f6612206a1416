import RadioRing.Proofs.LiveTimers
import RadioRing.Proofs.Refusals

/-!
# Proofs/Noise — junk on the air is silence

A packet is junk to a node (`Link.Junk`) if it has no sender, if its sender is the node itself or
outside the roster, if it is for somebody else, or if it does not decode.  **A poll that reads junk
leaves the station as it was**, like a poll that yields nothing (`Station.step_of_polls`).  So a run
on a noisy radio is the run on the same radio without the junk, which leaves out the polls that read
it (`Station.heeded`), and **no frame sent or delivered tells the two apart**.
-/

namespace RadioRing

/-- Whether a remark is about a packet as it comes from the radio. -/
def Event.isReport : Event → Bool
  | heard .. | foreignSender _ | malformed .. => true
  | _ => false

namespace Link

/-- The packet is not for the node. -/
inductive Junk (l : Link) (reports : Bool) (p : Packet) : Prop
  /-- The radio does not tell the sender, and the packet is empty. -/
  | headless (lacks : senderOf reports p = none)
  /-- The node itself has sent it, or nobody of the roster. -/
  | foreign {sender : Address} {raw : Bytes} (sent : senderOf reports p = some (sender, raw))
      (stranger : sender = l.own ∨ sender ∉ l.roster)
  /-- It is meant for somebody else. -/
  | misaddressed (other : p.dest ≠ l.own) (single : p.dest.isEveryone = false)
  /-- Its bytes are no message. -/
  | garbled {sender : Address} {raw : Bytes} {error : FrameError}
      (sent : senderOf reports p = some (sender, raw)) (bad : Message.decode raw = .error error)

variable {l : Link} {reports : Bool} {p : Packet}

/-- **The filter of a link keeps back junk, and nothing else.** -/
theorem fst_read_eq_none_iff : (l.read reports p).1 = none ↔ l.Junk reports p := by
  constructor
  · intro h
    unfold read at h
    dsimp only at h
    split at h
    · exact .headless ‹_›
    · rename_i sent
      split at h
      · exact .foreign sent ‹_›
      · split at h
        · rename_i hdest
          exact .misaddressed hdest.1 (Bool.eq_false_iff.2 hdest.2)
        · split at h
          · exact absurd h nofun
          · exact .garbled sent ‹_›
  · intro junk
    refine Option.eq_none_iff_forall_ne_some.2 fun m hm => ?_
    obtain ⟨sent, hdest, passes⟩ := fst_read_eq_some_iff.1 hm
    cases junk with
    | headless lacks => exact absurd (lacks.symm.trans sent) nofun
    | foreign sent' stranger =>
      obtain ⟨rfl, rfl⟩ := Prod.mk.inj (Option.some.inj (sent'.symm.trans sent))
      exact stranger.elim passes.foreign (· passes.known)
    | misaddressed other single =>
      rw [hdest] at other single
      exact passes.meant.elim other (Bool.eq_false_iff.1 single)
    | garbled sent' bad =>
      obtain ⟨rfl, rfl⟩ := Prod.mk.inj (Option.some.inj (sent'.symm.trans sent))
      exact absurd (bad.symm.trans passes.reads) nofun

instance : Decidable (l.Junk reports p) := decidable_of_iff _ fst_read_eq_none_iff

/-- A link remarks on nothing but what came from the radio. -/
theorem isReport_of_mem_read : ∀ e ∈ (l.read reports p).2, e.isReport = true := by
  unfold read
  dsimp only
  repeat' split
  all_goals simp [Event.isReport]

variable {ρ ρ' : Type} [Radio ρ] [Radio ρ']

/-- What a packet comes to that a radio hands over, and what is said about it. -/
theorem await_of_receive {radio : ρ} {timeout : Duration}
    (h : (Radio.receive radio timeout).1 = some p) : l.await radio timeout =
      ((l.read (Radio.reportsSender (Radio.receive radio timeout).2) p).1,
        (Radio.receive radio timeout).2,
        (l.read (Radio.reportsSender (Radio.receive radio timeout).2) p).2) := by
  unfold await
  rcases hr : Radio.receive radio timeout with ⟨got, radio₁⟩
  rw [hr] at h
  obtain rfl : got = some p := h
  rfl

/-- A radio that hands nothing over leaves nothing to remark on. -/
theorem await_of_silence {radio : ρ} {timeout : Duration}
    (h : (Radio.receive radio timeout).1 = none) :
    l.await radio timeout = (none, (Radio.receive radio timeout).2, []) := by
  unfold await
  rcases hr : Radio.receive radio timeout with ⟨got, radio₁⟩
  rw [hr] at h
  obtain rfl : got = none := h
  rfl

end Link

/-! ## One poll -/

/-- **A node that polls and hears nothing stays as it is**, in every state that polls. -/
theorem Node.react_of_patience {α : Type} [Application α] {n : Node} {app : α} {clock : Readings}
    {timeout : Duration} (h : n.patience clock.start = some timeout) :
    n.react app clock none = .ok { node := n, app, transition := .goTo n.state } := by
  obtain ⟨d, awaited, early, idle, -⟩ := Node.patience_eq_some_iff.1 h
  unfold Node.awaited? at awaited
  unfold Node.hasWork at idle
  unfold Node.react
  cases hs : n.state <;> rw [hs] at awaited idle <;>
    simp only [Option.mem_some_iff, Option.not_mem_none] at awaited
  all_goals subst awaited
  case awaitingAdmission => simp [Node.awaitAdmission, early]
  case admitting => simp [Node.admitting, early]
  case alone => simp [Node.waitAlone, early]
  case listening =>
    have nothing : n.deferred = none := by simpa using idle
    simp [Node.listen, early, nothing]
  case acknowledging => simp [Node.acknowledge, early]
  case awaitingEcho =>
    rw [Deadline.elapsed_earlier, Bool.or_eq_false_iff] at early
    simp [Node.awaitEcho, early]
  case awaitingTaker => simp [Node.awaitTaker, early]

namespace Station

variable {α ρ ρ' : Type} [Application α] [Radio ρ] [Radio ρ'] {s : Station α} {radio : ρ}
  {clock : Readings} {timeout : Duration}

/-- **A poll from which nothing comes through changes nothing.**  All that is left of it is what the
radio did and what was said about it. -/
theorem step_of_polls (h : s.node.patience clock.start = some timeout)
    (nothing : (s.node.link.await radio timeout).1 = none) : s.step radio clock =
      .ok (s, (s.node.link.await radio timeout).2.1, (s.node.link.await radio timeout).2.2) := by
  have hhear : s.hear radio clock.start = s.node.link.await radio timeout := by
    simp only [hear_eq, h]
  have hreact : s.node.react s.app clock (s.hear radio clock.start).1 =
      .ok { node := s.node, app := s.app, transition := .goTo s.node.state } := by
    rw [hhear, nothing]
    exact Node.react_of_patience h
  rw [step_of_react hreact, hhear]
  simp [Reaction.finish, Node.move, Node.applyMarks, emit, bind, Except.bind]

/-- The step polls, and the packet that it reads is junk. -/
def ReadsJunk (s : Station α) (radio : ρ) (now : Timestamp) : Prop :=
  ∃ timeout ∈ s.node.patience now, ∃ p ∈ (Radio.receive radio timeout).1,
    s.node.link.Junk (Radio.reportsSender (Radio.receive radio timeout).2) p

instance {now : Timestamp} : Decidable (s.ReadsJunk radio now) :=
  inferInstanceAs (Decidable (∃ timeout ∈ s.node.patience now,
    ∃ p ∈ (Radio.receive radio timeout).1,
      s.node.link.Junk (Radio.reportsSender (Radio.receive radio timeout).2) p))

/-- **A step that reads junk leaves the station as it was**, with remarks on the packet. -/
theorem step_of_readsJunk (h : s.ReadsJunk radio clock.start) :
    ∃ timeout remarks, s.node.patience clock.start = some timeout ∧
      s.step radio clock = .ok (s, (Radio.receive radio timeout).2, remarks) ∧
      ∀ e ∈ remarks, e.isReport = true := by
  obtain ⟨timeout, polls, p, received, junk⟩ := h
  have hawait := s.node.link.await_of_receive received
  have hstep := step_of_polls polls (by rw [hawait]; exact Link.fst_read_eq_none_iff.2 junk)
  rw [hawait] at hstep
  exact ⟨timeout, _, polls, hstep, Link.isReport_of_mem_read⟩

/-- A poll that hears nothing leaves the station as it was, without a remark. -/
theorem step_of_silence (h : s.node.patience clock.start = some timeout)
    (silent : (Radio.receive radio timeout).1 = none) :
    s.step radio clock = .ok (s, (Radio.receive radio timeout).2, []) := by
  have hawait := s.node.link.await_of_silence silent
  have hstep := step_of_polls h (by rw [hawait])
  rwa [hawait] at hstep

theorem link_of_step {t : Station α} {radio' : ρ} {events : List Event}
    (h : s.step radio clock = .ok (t, radio', events)) : t.node.link = s.node.link := by
  obtain ⟨x, hx, rfl, -, rfl⟩ := exists_happensOn h
  unfold Node.link Node.own
  rw [hx.happens.settings_after]

/-! ## A run without the junk -/

/-- The readings of the clock for the steps that read no junk. -/
def heeded (s : Station α) (radio : ρ) : List Readings → List Readings
  | [] => []
  | clock :: rest =>
    match s.step radio clock with
    | .error _ => clock :: rest
    | .ok (t, radio', _) =>
      if s.ReadsJunk radio clock.start then t.heeded radio' rest
      else clock :: t.heeded radio' rest

end Station

/-- A relation between a radio that hears junk and one that does not, and is the same otherwise:
when the first one hands junk over, the second one need not be asked at all, and whatever else they
are asked, both give the same answer. -/
structure Muffles {ρ ρ' : Type} [Radio ρ] [Radio ρ'] (l : Link) (R : ρ → ρ' → Prop) : Prop where
  capacity : ∀ {noisy quiet}, R noisy quiet → Radio.capacity quiet = Radio.capacity noisy
  reportsSender : ∀ {noisy quiet}, R noisy quiet →
    Radio.reportsSender quiet = Radio.reportsSender noisy
  send : ∀ {noisy quiet}, R noisy quiet → ∀ dest frame,
    (Radio.send quiet dest frame).1 = (Radio.send noisy dest frame).1 ∧
      R (Radio.send noisy dest frame).2 (Radio.send quiet dest frame).2
  awaitSent : ∀ {noisy quiet}, R noisy quiet → ∀ most,
    R (Radio.awaitSent noisy most) (Radio.awaitSent quiet most)
  listen : ∀ {noisy quiet}, R noisy quiet → R (Radio.listen noisy) (Radio.listen quiet)
  junk : ∀ {noisy quiet}, R noisy quiet → ∀ timeout, ∀ p ∈ (Radio.receive noisy timeout).1,
    l.Junk (Radio.reportsSender (Radio.receive noisy timeout).2) p →
      R (Radio.receive noisy timeout).2 quiet
  receive : ∀ {noisy quiet}, R noisy quiet → ∀ timeout,
    (∀ p ∈ (Radio.receive noisy timeout).1,
      ¬l.Junk (Radio.reportsSender (Radio.receive noisy timeout).2) p) →
    (Radio.receive quiet timeout).1 = (Radio.receive noisy timeout).1 ∧
      R (Radio.receive noisy timeout).2 (Radio.receive quiet timeout).2

namespace Muffles

variable {α ρ ρ' : Type} [Radio ρ] [Radio ρ'] {l : Link} {R : ρ → ρ' → Prop} {noisy : ρ}
  {quiet : ρ'}

/-- Both radios take a frame, or both refuse it. -/
theorem linkSend (h : Muffles l R) (hR : R noisy quiet) (dest : Address) (m : Message) :
    (l.send quiet dest m).1 = (l.send noisy dest m).1 ∧
      R (l.send noisy dest m).2.1 (l.send quiet dest m).2.1 ∧
      (l.send quiet dest m).2.2 = (l.send noisy dest m).2.2 := by
  unfold Link.send
  rw [h.capacity hR, h.reportsSender hR]
  cases l.frame (Radio.reportsSender noisy) (Radio.capacity noisy) m with
  | error e => exact ⟨rfl, hR, rfl⟩
  | ok frame =>
    obtain ⟨hsame, hR'⟩ := h.send hR dest frame
    dsimp only
    rcases hn : Radio.send noisy dest frame with ⟨answer, noisy'⟩
    rcases hq : Radio.send quiet dest frame with ⟨answer', quiet'⟩
    rw [hn, hq] at hsame hR'
    obtain rfl : answer' = answer := hsame
    cases answer' with
    | error e => exact ⟨rfl, hR', rfl⟩
    | ok _ => exact ⟨rfl, h.listen (h.awaitSent hR' _), rfl⟩

theorem emit (h : Muffles l R) (hR : R noisy quiet) (e : Option Emission) :
    (Station.emit l quiet e).1 = (Station.emit l noisy e).1 ∧
      R (Station.emit l noisy e).2.1 (Station.emit l quiet e).2.1 ∧
      (Station.emit l quiet e).2.2 = (Station.emit l noisy e).2.2 := by
  cases e with
  | none => exact ⟨rfl, hR, rfl⟩
  | some e => exact h.linkSend hR e.dest e.message

/-- **What comes through on the noisy radio comes through on the quiet one**, if it is not junk. -/
theorem await (h : Muffles l R) (hR : R noisy quiet) {timeout : Duration}
    (heeds : ∀ p ∈ (Radio.receive noisy timeout).1,
      ¬l.Junk (Radio.reportsSender (Radio.receive noisy timeout).2) p) :
    (l.await quiet timeout).1 = (l.await noisy timeout).1 ∧
      R (l.await noisy timeout).2.1 (l.await quiet timeout).2.1 ∧
      (l.await quiet timeout).2.2 = (l.await noisy timeout).2.2 := by
  obtain ⟨hsame, hR'⟩ := h.receive hR timeout heeds
  cases hgot : (Radio.receive noisy timeout).1 with
  | none =>
    rw [l.await_of_silence hgot, l.await_of_silence (hsame.trans hgot)]
    exact ⟨rfl, hR', rfl⟩
  | some p =>
    rw [l.await_of_receive hgot, l.await_of_receive (hsame.trans hgot), h.reportsSender hR']
    exact ⟨rfl, hR', rfl⟩

variable {s : Station α}

/-- A station hears the same on both radios, if it reads no junk. -/
theorem hear (h : Muffles s.node.link R) (hR : R noisy quiet) {now : Timestamp}
    (heeds : ¬s.ReadsJunk noisy now) : (s.hear quiet now).1 = (s.hear noisy now).1 ∧
      R (s.hear noisy now).2.1 (s.hear quiet now).2.1 ∧
      (s.hear quiet now).2.2 = (s.hear noisy now).2.2 := by
  rw [Station.hear_eq, Station.hear_eq]
  cases hpatience : s.node.patience now with
  | none => exact ⟨rfl, hR, rfl⟩
  | some timeout =>
    exact h.await hR fun p received junk => heeds ⟨timeout, hpatience, p, received, junk⟩

/-- **A step that reads no junk is the same on both radios.** -/
theorem step [Application α] {clock : Readings} (h : Muffles s.node.link R) (hR : R noisy quiet)
    (heeds : ¬s.ReadsJunk noisy clock.start) :
    Abreast (fun p p' => p'.1 = p.1 ∧ R p.2.1 p'.2.1 ∧ p'.2.2 = p.2.2) (s.step noisy clock)
      (s.step quiet clock) := by
  obtain ⟨hheard, hradio, hreports⟩ := h.hear hR heeds
  cases hreact : s.node.react s.app clock (s.hear noisy clock.start).1 with
  | error e =>
    rw [Station.step_of_react_error hreact, Station.step_of_react_error (hheard ▸ hreact)]
    exact .error e
  | ok r =>
    rw [Station.step_of_react hreact, Station.step_of_react (hheard ▸ hreact)]
    obtain ⟨htaken, hradio', hsent⟩ := h.emit hradio r.emission
    rw [htaken, hsent, hreports]
    cases r.finish (Station.emit s.node.link (s.hear noisy clock.start).2.1 r.emission).1
        clock.entered with
    | error e => exact .error e
    | ok p => exact .ok ⟨rfl, hradio', rfl⟩

end Muffles

/-- What a station reports, but for the remarks on what its radio hands over: every frame sent, what
became of it, and every transition. -/
def Event.doings (events : List Event) : List Event := events.filter (¬·.isReport)

/-- Reports are no doings. -/
theorem Event.doings_of_reports {events : List Event} (h : ∀ e ∈ events, e.isReport = true) :
    Event.doings events = [] :=
  List.filter_eq_nil_iff.2 fun e he => by simp [h e he]

theorem Event.doings_append (events more : List Event) :
    Event.doings (events ++ more) = Event.doings events ++ Event.doings more :=
  List.filter_append ..

namespace Station

variable {α ρ : Type} [Application α] [Radio ρ] {s t : Station α} {radio radio' : ρ}
  {clock : Readings} {rest : List Readings}

theorem course_of_error {e : Overflow} (h : s.step radio clock = .error e) :
    s.course radio (clock :: rest) = .error e := by
  simp only [course, h]
  rfl

/-- A run goes on from where its first step has led. -/
theorem course_of_ok {events : List Event} (h : s.step radio clock = .ok (t, radio', events)) :
    s.course radio (clock :: rest) =
      t.course radio' rest >>= fun p => .ok (p.1, p.2.1, events ++ p.2.2) := by
  simp only [course, h]
  rfl

theorem heeded_of_error {e : Overflow} (h : s.step radio clock = .error e) :
    s.heeded radio (clock :: rest) = clock :: rest := by
  simp only [heeded, h]

/-- The clock reading of a step is left out exactly if the step reads junk. -/
theorem heeded_of_ok {events : List Event} (h : s.step radio clock = .ok (t, radio', events)) :
    s.heeded radio (clock :: rest) = if s.ReadsJunk radio clock.start then t.heeded radio' rest
      else clock :: t.heeded radio' rest := by
  simp only [heeded, h]

end Station

/-- **A run on the noisy radio is a run on the quiet one**, without the polls that read junk. -/
theorem Muffles.course {α ρ ρ' : Type} [Application α] [Radio ρ] [Radio ρ'] {l : Link}
    {R : ρ → ρ' → Prop} (h : Muffles l R) (clocks : List Readings) : ∀ {s : Station α} {noisy : ρ}
    {quiet : ρ'}, s.node.link = l → R noisy quiet →
    Abreast (fun p p' => p'.1 = p.1 ∧ R p.2.1 p'.2.1 ∧
        Event.doings p'.2.2 = Event.doings p.2.2)
      (s.course noisy clocks) (s.course quiet (s.heeded noisy clocks)) := by
  induction clocks with
  | nil => exact fun _ hR => .ok ⟨rfl, hR, rfl⟩
  | cons clock rest ih =>
    intro s noisy quiet hlink hR
    by_cases junk : s.ReadsJunk noisy clock.start
    · -- The poll that reads junk is left out, and the station goes on as it is.
      obtain ⟨timeout, remarks, polls, hstep, reports⟩ := Station.step_of_readsJunk junk
      have hR' : R (Radio.receive noisy timeout).2 quiet := by
        obtain ⟨timeout', polls', p, received, hjunk⟩ := junk
        obtain rfl := Option.some.inj (polls.symm.trans polls')
        exact h.junk hR timeout p received (hlink ▸ hjunk)
      rw [Station.heeded_of_ok hstep, if_pos junk, Station.course_of_ok hstep]
      refine (ih hlink hR').bind_left fun p p' ⟨hsame, hR'', hdoings⟩ => ⟨hsame, hR'', ?_⟩
      rw [Event.doings_append, Event.doings_of_reports reports]
      exact hdoings
    · have hsteps := (hlink ▸ h : Muffles s.node.link R).step hR junk
      cases hstep : s.step noisy clock with
      | error e =>
        rw [hstep] at hsteps
        rw [Station.heeded_of_error hstep, Station.course_of_error hstep,
          Station.course_of_error hsteps.of_error]
        exact .error e
      | ok p =>
        obtain ⟨t, noisy', events⟩ := p
        rw [hstep] at hsteps
        obtain ⟨⟨t', quiet', events'⟩, hquiet, rfl, hR', rfl⟩ := hsteps.of_ok
        rw [Station.heeded_of_ok hstep, if_neg junk, Station.course_of_ok hstep,
          Station.course_of_ok hquiet]
        refine (ih ((Station.link_of_step hstep).trans hlink) hR').bind
          fun p p' ⟨hsame, hR'', hdoings⟩ => .ok ⟨hsame, hR'', ?_⟩
        rw [Event.doings_append, Event.doings_append, hdoings]

/-- **Junk is silence.**  A step that polls and reads junk leaves the station as it was, every field
of its node and its application included, and sends nothing, exactly like a step whose radio yields
nothing at the same time; all it adds is remarks on what was received.  And a run on a radio that
hands junk over is the run on a radio without it that leaves out the polls that read it: both fail
in the same way, or both come to the same station, having sent the same frames and reported the same
but for those remarks. -/
theorem junk_is_silence {α ρ ρ' : Type} [Application α] [Radio ρ] [Radio ρ'] (s : Station α) :
    (∀ (noisy : ρ) (quiet : ρ') (clock : Readings) (timeout : Duration),
      s.node.patience clock.start = some timeout → s.ReadsJunk noisy clock.start →
      (Radio.receive quiet timeout).1 = none →
      ∃ remarks, s.step noisy clock = .ok (s, (Radio.receive noisy timeout).2, remarks) ∧
        s.step quiet clock = .ok (s, (Radio.receive quiet timeout).2, []) ∧
        Event.doings remarks = []) ∧
    ∀ (R : ρ → ρ' → Prop) (noisy : ρ) (quiet : ρ') (clocks : List Readings),
      Muffles s.node.link R → R noisy quiet →
      Abreast (fun p p' => p'.1 = p.1 ∧ R p.2.1 p'.2.1 ∧
          Event.doings p'.2.2 = Event.doings p.2.2)
        (s.course noisy clocks) (s.course quiet (s.heeded noisy clocks)) := by
  constructor
  · intro noisy quiet clock timeout polls junk silent
    obtain ⟨timeout', remarks, polls', hstep, reports⟩ := Station.step_of_readsJunk junk
    obtain rfl := Option.some.inj (polls.symm.trans polls')
    exact ⟨remarks, hstep, Station.step_of_silence polls silent, Event.doings_of_reports reports⟩
  · intro R noisy quiet clocks muffles hR
    exact muffles.course clocks rfl hR

/-! ## A noisy turn -/

/-- Whether the call gives the radio a frame. -/
def Call.isFrame : Call → Bool
  | sent .. | refused .. => true
  | _ => false

/-- The second radio plays the packets of the first one but for the junk, and has got the same
frames to send. -/
structure ScriptedRadio.Muffled (l : Link) (noisy quiet : ScriptedRadio) : Prop where
  reportsSender : quiet.reportsSender = noisy.reportsSender
  capacity : quiet.capacity = noisy.capacity
  failing : quiet.failing = noisy.failing
  inbox : quiet.inbox = noisy.inbox.filter (¬l.Junk noisy.reportsSender ·)
  frames : quiet.calls.filter Call.isFrame = noisy.calls.filter Call.isFrame

/-- **A script without its junk muffles the script**, call by call. -/
theorem ScriptedRadio.muffles (l : Link) : Muffles l (ScriptedRadio.Muffled l) where
  capacity h := h.capacity
  reportsSender h := h.reportsSender
  send := by
    intro noisy quiet h dest frame
    obtain ⟨reportsSender, capacity, failing, inbox, frames⟩ := h
    simp only [Radio.send, failing]
    split
    · exact ⟨rfl, reportsSender, capacity, failing, inbox,
        congrArg (Call.refused dest frame :: ·) frames⟩
    · exact ⟨rfl, reportsSender, capacity, failing, inbox,
        congrArg (Call.sent dest frame :: ·) frames⟩
  awaitSent h most := ⟨h.reportsSender, h.capacity, h.failing, h.inbox, h.frames⟩
  listen h := ⟨h.reportsSender, h.capacity, h.failing, h.inbox, h.frames⟩
  junk := by
    intro noisy quiet h timeout p received hjunk
    obtain ⟨reportsSender, capacity, failing, inbox, frames⟩ := h
    obtain ⟨reports, most, packets, fails, calls⟩ := noisy
    cases packets with
    | nil => exact absurd received nofun
    | cons q rest =>
      obtain rfl := Option.some.inj received
      have drops : l.Junk reports q := hjunk
      refine ⟨reportsSender, capacity, failing, inbox.trans ?_, frames⟩
      exact List.filter_cons_of_neg (by simpa using drops)
  receive := by
    intro noisy quiet h timeout heeds
    obtain ⟨reportsSender, capacity, failing, inbox, frames⟩ := h
    obtain ⟨reports, most, packets, fails, calls⟩ := noisy
    obtain ⟨reports', most', packets', fails', calls'⟩ := quiet
    cases packets with
    | nil =>
      obtain rfl : packets' = [] := inbox
      exact ⟨rfl, reportsSender, capacity, failing, rfl, frames⟩
    | cons q rest =>
      have keeps : ¬l.Junk reports q := heeds q rfl
      obtain rfl : packets' = q :: rest.filter (¬l.Junk reports ·) :=
        inbox.trans (List.filter_cons_of_pos (by simpa using keeps))
      exact ⟨rfl, reportsSender, capacity, failing, rfl, frames⟩

/-- Node 1 gets junk of every kind, and then its payload back from node 2. -/
def noise : ScriptedRadio :=
  { inbox := [⟨none, .everyone, []⟩,
      ⟨some ⟨1⟩, .everyone, (Message.data 9 [1]).encode⟩,
      ⟨some ⟨4⟩, .everyone, (Message.data 9 [1]).encode⟩,
      ⟨some ⟨2⟩, ⟨3⟩, (Message.data 9 [1]).encode⟩,
      ⟨some ⟨2⟩, .everyone, [7]⟩,
      ⟨some ⟨2⟩, ⟨1⟩, (Message.ack (Message.data 6 firstTurn.node.outgoing).encode).encode⟩] }

/-- The same radio without the junk. -/
def calm : ScriptedRadio :=
  { inbox := [⟨some ⟨2⟩, ⟨1⟩,
      (Message.ack (Message.data 6 firstTurn.node.outgoing).encode).encode⟩] }

theorem muffled_calm : ScriptedRadio.Muffled firstTurn.node.link noise calm where
  reportsSender := rfl
  capacity := rfl
  failing := rfl
  inbox := by decide
  frames := rfl

/-- The times of the steps: node 1 polls six times, and then offers the token. -/
def timesOfTurn : List Readings :=
  [0, 1, 2, 3, 4, 5, 6].map fun ms => .still (.ofMillis ms)

/-- **Node 1 hands the token on after its echo**, through the noise as without it. -/
theorem junk_is_silence_of_turn :
    firstTurn.ReadsJunk noise (.ofMillis 0) ∧
    firstTurn.heeded noise timesOfTurn = [5, 6].map (fun ms => .still (.ofMillis ms)) ∧
    (firstTurn.course noise timesOfTurn).toOption.map (·.1.node.state) =
      some (.awaitingTaker ⟨2⟩) ∧
    (∃ remarks, firstTurn.step noise (.still (.ofMillis 0)) =
      .ok (firstTurn, (Radio.receive noise (.ofMillis 200)).2, remarks)) ∧
    Abreast (fun p p' => p'.1 = p.1 ∧ ScriptedRadio.Muffled firstTurn.node.link p.2.1 p'.2.1 ∧
        Event.doings p'.2.2 = Event.doings p.2.2)
      (firstTurn.course noise timesOfTurn)
      (firstTurn.course calm (firstTurn.heeded noise timesOfTurn)) := by
  have junk : firstTurn.ReadsJunk noise (.ofMillis 0) := by decide
  obtain ⟨steps, runs⟩ := @junk_is_silence Beacon ScriptedRadio ScriptedRadio _ _ _ firstTurn
  obtain ⟨remarks, hstep, -⟩ :=
    steps noise {} (.still (.ofMillis 0)) (.ofMillis 200) (by decide) junk rfl
  exact ⟨junk, by decide, by decide, ⟨remarks, hstep⟩,
    runs _ noise calm timesOfTurn (ScriptedRadio.muffles _) muffled_calm⟩

end RadioRing
