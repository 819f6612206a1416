import RadioRing.Proofs.Authority
import RadioRing.Proofs.Exchange

/-!
# Proofs/Payloads — what is delivered, acknowledged and counted

A listener takes the payload that it looks at: it hands it to its application, unless it is sent
again and is the last one that was taken (`Kept.take`), and is then about to acknowledge it
(`Moment.Happens.of_takesUp`).  **Nothing else is ever taken** (`Node.kept_of_react`).  A node says
an acknowledgement only if it is about to, or at once for an offer of the token that names it
(`Node.Acts.of_ack`), and
**it counts its payload as echoed only if an acknowledgement repeats the frame that carried it**.
-/

namespace RadioRing

/-- The message carries the payload `body`. -/
def Message.IsPayload (m : Message) (body : Bytes) : Prop :=
  ∃ round, m = .data round body ∨ m = .retry round body

theorem Message.IsPayload.tag_eq {m : Message} {body : Bytes} (h : m.IsPayload body) :
    m.tag = .data ∨ m.tag = .retry := by
  obtain ⟨round, rfl | rfl⟩ := h
  · exact Or.inl rfl
  · exact Or.inr rfl

theorem Message.IsPayload.body_eq {m : Message} {body body' : Bytes} (h : m.IsPayload body)
    (h' : m.IsPayload body') : body = body' := by
  obtain ⟨round, rfl | rfl⟩ := h <;> obtain ⟨round', he | he⟩ := h'
  · exact (Message.data.inj he).2
  · exact absurd he nofun
  · exact absurd he nofun
  · exact (Message.retry.inj he).2

theorem Message.exists_isPayload {m : Message} (h : m.tag = .data ∨ m.tag = .retry) :
    ∃ body, m.IsPayload body := by
  cases m with
  | data round body => exact ⟨body, round, Or.inl rfl⟩
  | retry round body => exact ⟨body, round, Or.inr rfl⟩
  | _ => exact h.elim nofun nofun

/-! ## What is kept of payloads -/

namespace Application

variable {α : Type} [Application α] {app : α} {sender : Address} {body payload : Bytes}

/-- The application undoes its wrapping, and is handed what was wrapped. -/
def receive (app : α) (sender : Address) (body : Bytes) : α :=
  match unwrap app body with
  | (some payload, app) => deliver app sender payload
  | (none, app) => app

theorem receive_eq (h : (unwrap app body).1 = some payload) :
    receive app sender body = deliver (unwrap app body).2 sender payload := by
  have hopens : unwrap app body = (some payload, (unwrap app body).2) := Prod.ext h rfl
  rw [receive, hopens]

end Application

/-- What a listener keeps of the payloads that it takes: the last one, and its application. -/
@[ext]
structure Kept (α : Type) where
  last : Option (Address × Bytes)
  app : α

def Reaction.kept {α : Type} (r : Reaction α) : Kept α := ⟨r.node.lastDelivered, r.app⟩

def Station.kept {α : Type} (s : Station α) : Kept α := ⟨s.node.lastDelivered, s.app⟩

namespace Kept

variable {α : Type} [Application α] {k : Kept α} {m : Inbound} {body : Bytes}

/-- What is kept once a listener has looked at `m`: a payload is taken, unless it is sent again and
is the last one that was taken. -/
def take (k : Kept α) (m : Inbound) : Kept α :=
  match m.message with
  | .data _ body => ⟨some (m.sender, body), Application.receive k.app m.sender body⟩
  | .retry _ body =>
    if k.last = some (m.sender, body) then k
    else ⟨some (m.sender, body), Application.receive k.app m.sender body⟩
  | _ => k

/-- **A payload is taken unless it repeats the last one**, from the same sender and as a
repetition. -/
theorem take_eq (h : m.message.IsPayload body) : k.take m =
    if m.message.tag = .retry ∧ k.last = some (m.sender, body) then k
    else ⟨some (m.sender, body), Application.receive k.app m.sender body⟩ := by
  obtain ⟨round, h | h⟩ := h
  · simp [take, h, Message.tag]
  · simp [take, h, Message.tag]

theorem take_eq_self (h : ¬(m.message.tag = .data ∨ m.message.tag = .retry)) : k.take m = k := by
  unfold take
  split
  · exact absurd (Or.inl (by simp [*, Message.tag])) h
  · exact absurd (Or.inr (by simp [*, Message.tag])) h
  · rfl

/-- A payload that was looked at is the last one taken. -/
theorem last_take (h : m.message.IsPayload body) : (k.take m).last = some (m.sender, body) := by
  rw [take_eq h]
  split
  · exact ‹_ ∧ _›.2
  · rfl

end Kept

/-- **What passes for an echo of a payload is a frame of that payload.** -/
theorem Message.exists_payload_of_echoes {echo body : Bytes} {round : UInt32}
    (h : echoes echo round body = true) : ∃ m, decode echo = .ok m ∧ m.IsPayload body := by
  cases echo with
  | nil => exact absurd h nofun
  | cons first rest =>
    simp only [echoes, startsAsPayload, List.drop_one, List.tail_cons, Bool.and_eq_true,
      Bool.or_eq_true, decide_eq_true_eq] at h
    obtain ⟨rfl | rfl, rfl⟩ := h
    · exact ⟨_, decode_encode (wellFormed_data round body), round, Or.inl rfl⟩
    · exact ⟨_, decode_encode (wellFormed_retry round body), round, Or.inr rfl⟩

namespace Node

variable {n n' : Node} {clock : Readings} {heard : Option Inbound} {e : Option Emission}
  {t : Transition} {m : Inbound}

/-- **Why a node says an acknowledgement**: it was about to, or it hears an offer that names it. -/
theorem Acts.of_ack {x : Emission} {echo : Bytes} (h : n.Acts clock heard n' e t) (he : e = some x)
    (hx : x.message = .ack echo) (offer : ∀ m ∈ n.offer, m.tag = .turn) :
    n.state = .acknowledging x.dest echo ∨ n.state = .accepting x.dest echo ∨
      ∃ m session round, n.regards heard = some m ∧ m.message = .turn n.own session round ∧
        m.sender = x.dest ∧ m.raw = echo := by
  -- An acknowledgement that is said at once repeats the message that the step looks at.
  have atOnce {m : Inbound} {session : Session} {round : UInt32} (hm : n.regards heard = some m)
      (message : m.message = .turn n.own session round) (hack : x = .ack m.sender m.raw) :
      ∃ m session round, n.regards heard = some m ∧ m.message = .turn n.own session round ∧
        m.sender = x.dest ∧ m.raw = echo := by
    subst hack
    exact ⟨m, session, round, hm, message, rfl, Message.ack.inj hx⟩
  have elsewhere {s : State} (hs : n.state = s) (hne : s ≠ .listening) : n.regards heard = heard :=
    regards_of_ne_listening (hs ▸ hne) heard
  cases h with
  | acknowledges state =>
    obtain rfl := Option.some.inj he
    obtain rfl := Message.ack.inj hx
    exact Or.inl state
  | accepts state =>
    obtain rfl := Option.some.inj he
    obtain rfl := Message.ack.inj hx
    exact Or.inr (Or.inl state)
  | asks | admits | speaks | repeats | offers =>
    obtain rfl := Option.some.inj he
    exact absurd hx nofun
  | offersAgain =>
    obtain ⟨m, hm, rfl⟩ := Option.map_eq_some_iff.1 he
    have htag := offer m hm
    rw [show m = .ack echo from hx] at htag
    exact absurd htag nofun
  | hearsListening state early hears makes =>
    cases makes with
    | declines message =>
      exact Or.inr (Or.inr (atOnce ((regards_of_listening state heard).trans hears) message
        (Option.some.inj he).symm))
    | _ => exact absurd he nofun
  | hearsAlone state _ hears makes =>
    cases makes with
    | declines message =>
      exact Or.inr (Or.inr (atOnce ((elsewhere state nofun).trans hears) message
        (Option.some.inj he).symm))
    | _ => exact absurd he nofun
  | hearsHolding state _ _ hears makes =>
    cases makes with
    | offered message =>
      exact Or.inr (Or.inr (atOnce ((elsewhere state nofun).trans hears) message
        (Option.some.inj he).symm))
    | _ => exact absurd he nofun
  | hearsGiving state _ hears makes =>
    cases makes with
    | releases verdict =>
      obtain ⟨session, round, message⟩ := turn_of_judge_outdated verdict
      exact Or.inr (Or.inr (atOnce ((elsewhere state nofun).trans hears) message
        (Option.some.inj he).symm))
    | _ => exact absurd he nofun
  | _ => exact absurd he nofun

/-- **Nothing but a payload makes a node acknowledge one**, and nothing else is kept as the last one
taken. -/
theorem Acts.of_payload (h : n.Acts clock heard n' e t) :
    (n'.lastDelivered = n.lastDelivered ∧
      ∀ holder echo, t.next = .acknowledging holder echo → n.state = .acknowledging holder echo) ∨
    ∃ m round, n.state = .listening ∧ n.timers.watchdog.elapsed clock.start = false ∧
      n.regards heard = some m ∧ m.Carries round := by
  cases h with
  | joins =>
    refine Or.inl ⟨rfl, fun holder echo ht => ?_⟩
    split at ht <;> exact absurd ht nofun
  | waitsToReply | idles => exact Or.inl ⟨rfl, fun _ _ => id⟩
  | admits =>
    refine Or.inl ⟨?_, nofun⟩
    split <;> rfl
  | hearsListening state early hears makes =>
    cases makes with
    | payload message =>
      exact Or.inr ⟨_, _, state, early, (regards_of_listening state heard).trans hears, message⟩
    | _ => exact Or.inl ⟨rfl, nofun⟩
  | hearsAlone _ _ _ makes | hearsHolding _ _ _ _ makes | hearsGiving _ _ _ makes =>
    cases makes <;> exact Or.inl ⟨rfl, nofun⟩
  | _ => exact Or.inl ⟨rfl, nofun⟩

/-- **A payload of its own is counted as echoed** only when an acknowledgement for the node repeats
it. -/
theorem Acts.of_payloadsEchoed (h : n.Acts clock heard n' e t)
    (hcount : n.stats.payloadsEchoed < n'.stats.payloadsEchoed) : ∃ m echo, heard = some m ∧
      m.message = .ack echo ∧ m.dest = n.own ∧ echoes echo n.rounds.held n.outgoing = true := by
  have same (hsame : n'.stats.payloadsEchoed = n.stats.payloadsEchoed) : False :=
    Nat.ne_of_lt hcount hsame.symm
  cases h with
  | hearsHolding _ _ _ hears makes =>
    cases makes with
    | echoed message meant echoes => exact ⟨_, _, hears, message, meant, echoes⟩
    | _ => exact (same rfl).elim
  | admits =>
    refine (same ?_).elim
    split <;> rfl
  | hearsListening _ _ _ makes | hearsAlone _ _ _ makes | hearsGiving _ _ _ makes =>
    cases makes <;> exact (same rfl).elim
  | _ => exact (same rfl).elim

/-! ## What the application gets -/

section

variable {α : Type} [Application α] {app : α}

theorem kept_hearPayload (n : Node) (app : α) (m : Inbound) (body : Bytes) (repeated : Bool) :
    (n.hearPayload app m body repeated).kept =
      if repeated ∧ n.lastDelivered = some (m.sender, body) then ⟨n.lastDelivered, app⟩
      else ⟨some (m.sender, body), Application.receive app m.sender body⟩ := by
  unfold hearPayload takePayload Application.receive Reaction.kept
  dsimp only
  split
  · rfl
  · rcases Application.unwrap app body with ⟨_ | payload, app'⟩ <;> rfl

omit [Application α] in
theorem kept_hearOffer (n : Node) (app : α) (m : Inbound) (target : Address) (session : Session)
    (round : UInt32) : (n.hearOffer app m target session round).kept = ⟨n.lastDelivered, app⟩ := by
  unfold hearOffer
  repeat' split
  all_goals rfl

/-- **A listener takes payloads and nothing else.** -/
theorem kept_hearAsListener (n : Node) (app : α) (m : Inbound) :
    (n.hearAsListener app m).kept = Kept.take ⟨n.lastDelivered, app⟩ m := by
  unfold hearAsListener Kept.take
  cases hm : m.message with
  | data round body =>
    dsimp only
    rw [kept_hearPayload, if_neg fun h => absurd h.1 nofun]
  | retry round body =>
    dsimp only
    rw [kept_hearPayload]
    simp only [true_and]
  | turn target session round => exact kept_hearOffer n app m target session round
  | ack echo => rfl
  | joinRequest joiner | joinAck target session round handsOver members =>
    dsimp only
    split <;> rfl

omit [Application α] in
theorem kept_fireWatchdog (n : Node) (app : α) (start : Timestamp) :
    (n.fireWatchdog app start).kept = ⟨n.lastDelivered, app⟩ := by
  unfold fireWatchdog fireWatchdog.claimAfter
  dsimp only
  repeat' split
  all_goals rfl

/-- Nothing is taken while a node does anything but listen; only for its own turn it asks its
application for a payload. -/
theorem kept_of_ne_listening {r : Reaction α} (h : n.react app clock heard = .ok r)
    (hs : n.state ≠ .listening) (hspeak : n.state ≠ .speaking) :
    r.kept = ⟨n.lastDelivered, app⟩ := by
  have hlast := (acts_of_react h).of_payload.resolve_right fun ⟨_, _, state, _⟩ => hs state
  refine Kept.ext hlast.1 (show r.app = app from ?_)
  unfold react at h
  split at h
  case h_1 =>
    unfold request at h
    dsimp only at h
    split at h
    · exact absurd h nofun
    · obtain rfl := Except.ok.inj h
      rfl
  case h_6 state => exact absurd state hs
  case h_9 state => exact absurd state hspeak
  all_goals obtain rfl := Except.ok.inj h
  case h_3 | h_8 => rfl
  case h_2 =>
    unfold awaitAdmission
    repeat' split
    all_goals rfl
  case h_4 =>
    unfold admitting
    repeat' split
    all_goals rfl
  case h_5 =>
    unfold waitAlone hearAlone
    repeat' split
    all_goals rfl
  case h_7 =>
    unfold acknowledge
    repeat' split
    all_goals rfl
  case h_10 =>
    unfold awaitEcho hearAsHolder
    repeat' split
    all_goals rfl
  case h_11 =>
    unfold repeatPayload
    repeat' split
    all_goals rfl
  case h_12 =>
    unfold offerToken
    repeat' split
    all_goals rfl
  case h_13 =>
    unfold awaitTaker hearAsGiver
    repeat' split
    all_goals rfl

/-- The payload that a node takes up: the one that it looks at while it listens. -/
def takesUp (n : Node) (start : Timestamp) (heard : Option Inbound) : Option Inbound :=
  if n.state = .listening ∧ n.timers.watchdog.elapsed start = false
  then (n.regards heard).filter fun m => m.message.tag = .data ∨ m.message.tag = .retry
  else none

omit [Application α] in
/-- A payload is taken up by a listener whose watchdog has not run out. -/
theorem takesUp_eq_some_iff {start : Timestamp} : n.takesUp start heard = some m ↔
    n.state = .listening ∧ n.timers.watchdog.elapsed start = false ∧ n.regards heard = some m ∧
      (m.message.tag = .data ∨ m.message.tag = .retry) := by
  unfold takesUp
  split
  · rename_i h
    simp [h, Option.filter_eq_some_iff]
  · rename_i h
    simp only [reduceCtorEq, false_iff]
    exact fun h' => h ⟨h'.1, h'.2.1⟩

/-- **A listener takes the payload that it takes up**, if any. -/
theorem kept_listen (app : α) (hs : n.state = .listening) : (n.listen app clock heard).kept =
    (n.takesUp clock.start heard).elim ⟨n.lastDelivered, app⟩
      (Kept.take ⟨n.lastDelivered, app⟩) := by
  rw [takesUp, regards_of_listening hs]
  cases hd : n.timers.watchdog.elapsed clock.start with
  | true =>
    have hfires : n.listen app clock heard = n.fireWatchdog app clock.start := by
      unfold listen
      rw [hd]
      rfl
    rw [hfires, kept_fireWatchdog, if_neg nofun]
    rfl
  | false =>
    rw [listen_eq app heard hd, if_pos ⟨hs, rfl⟩]
    cases n.deferred.or heard with
    | none => rfl
    | some m =>
      dsimp only
      rw [kept_hearAsListener, Option.filter_some]
      by_cases htag : m.message.tag = .data ∨ m.message.tag = .retry
      · rw [if_pos (decide_eq_true htag)]
        rfl
      · rw [if_neg (by simpa using htag), Kept.take_eq_self htag]
        rfl

/-- **Nothing but the payload that it takes up reaches the application of a node**, unless it is the
turn of the node. -/
theorem kept_of_react {r : Reaction α} (h : n.react app clock heard = .ok r)
    (hspeak : n.state ≠ .speaking) : r.kept =
      (n.takesUp clock.start heard).elim ⟨n.lastDelivered, app⟩
        (Kept.take ⟨n.lastDelivered, app⟩) := by
  by_cases hs : n.state = .listening
  · unfold react at h
    rw [hs] at h
    obtain rfl := Except.ok.inj h
    exact kept_listen app hs
  · rw [kept_of_ne_listening h hs hspeak, takesUp, if_neg fun h => hs h.1]
    rfl

end

end Node

namespace Moment

section

variable {α : Type} {x : Moment α} {m : Inbound}

/-- The payload that the step takes up. -/
def takesUp (x : Moment α) : Option Inbound := x.before.node.takesUp x.clock.start x.heard

variable [Application α]

/-- **Who takes a payload up is about to acknowledge it.** -/
theorem Happens.of_takesUp (hx : x.Happens) (h : x.takesUp = some m) :
    x.after.node.state = .acknowledging m.sender m.raw ∧ x.reaction.emission = none := by
  obtain ⟨state, early, hm, htag⟩ := Node.takesUp_eq_some_iff.1 h
  obtain ⟨body, round, hbody⟩ := Message.exists_isPayload htag
  obtain ⟨last, app, events, hr⟩ := (x.before.node.awake x.clock.heard).hearAsListener_carries
    x.before.app (show m.Carries round from ⟨body, hbody⟩)
  rw [hx.state_after, hx.reaction_of_listening state early hm, hr]
  exact ⟨rfl, rfl⟩

/-- **Where no payload is taken up, none is remembered**, and no acknowledgement of one begins. -/
theorem Happens.of_takesUp_none (hx : x.Happens) (h : x.takesUp = none) :
    x.after.node.lastDelivered = x.before.node.lastDelivered ∧
      ∀ holder echo, x.after.node.state = .acknowledging holder echo →
        x.before.node.state = .acknowledging holder echo := by
  rw [hx.state_after, hx.lastDelivered_after]
  refine hx.acts.of_payload.resolve_right ?_
  rintro ⟨m, round, state, early, hm, body, hbody⟩
  have htag : m.message.tag = .data ∨ m.message.tag = .retry :=
    Message.IsPayload.tag_eq ⟨round, hbody⟩
  exact absurd (h.symm.trans (Node.takesUp_eq_some_iff.2 ⟨state, early, hm, htag⟩)) nofun

/-- **What is kept after a step**: the payload that it takes up is taken. -/
theorem Happens.kept_after (hx : x.Happens) (hspeak : x.before.node.state ≠ .speaking) :
    x.after.kept = x.takesUp.elim x.before.kept x.before.kept.take := by
  have hafter : x.after.kept = x.reaction.kept :=
    Kept.ext hx.lastDelivered_after hx.steps.app
  rw [hafter, Node.kept_of_react hx.steps.reacts hspeak]
  rfl

end

variable {x : Moment Beacon}

/-- The payload `body` of `sender` is appended to what was delivered. -/
def Delivers (x : Moment Beacon) (sender : Address) (body : Bytes) : Prop :=
  ∃ new, x.after.app.delivered = x.before.app.delivered ++ new ∧ (sender, body) ∈ new

/-- A payload of the node is counted as echoed. -/
def CountsEcho {α : Type} (x : Moment α) : Prop :=
  x.before.node.stats.payloadsEchoed < x.after.node.stats.payloadsEchoed

variable {m : Inbound} {body : Bytes}

/-- **What a step delivers and keeps**: nothing, or the payload that it looks at, which it is then
about to acknowledge. -/
theorem Happens.of_payload (hx : x.Happens) :
    (x.after.app.heard = x.before.app.heard ∧
      x.after.node.lastDelivered = x.before.node.lastDelivered ∧
      ∀ holder echo, x.after.node.state = .acknowledging holder echo →
        x.before.node.state = .acknowledging holder echo) ∨
    ∃ m body, x.Regards m ∧ m.message.IsPayload body ∧
      x.after.node.state = .acknowledging m.sender m.raw ∧
      x.after.node.lastDelivered = some (m.sender, body) ∧
      (x.after.app.heard = (m.sender, body) :: x.before.app.heard ∨
        x.before.node.lastDelivered = some (m.sender, body) ∧
          x.after.app.heard = x.before.app.heard) := by
  cases ht : x.takesUp with
  | none =>
    obtain ⟨hlast, hstate⟩ := hx.of_takesUp_none ht
    refine Or.inl ⟨?_, hlast, hstate⟩
    by_cases hspeak : x.before.node.state = .speaking
    · have hreact := hx.steps.reacts
      unfold Node.react at hreact
      rw [hspeak] at hreact
      rw [hx.steps.app, ← Except.ok.inj hreact]
      rfl
    · have hkept := hx.kept_after hspeak
      rw [ht] at hkept
      exact congrArg (fun k => k.app.heard) hkept
  | some m =>
    obtain ⟨state, -, hm, htag⟩ := Node.takesUp_eq_some_iff.1 ht
    obtain ⟨body, hbody⟩ := Message.exists_isPayload htag
    have hkept := hx.kept_after (by rw [state]; nofun)
    rw [ht, Option.elim_some, Kept.take_eq hbody] at hkept
    refine Or.inr ⟨m, body, hm, hbody, (hx.of_takesUp ht).1, ?_, ?_⟩
    · rw [← Kept.last_take (k := x.before.kept) hbody, Kept.take_eq hbody, ← hkept]
      rfl
    · split at hkept
      · exact Or.inr ⟨‹_ ∧ _›.2, congrArg (fun k => k.app.heard) hkept⟩
      · exact Or.inl (congrArg (fun k => k.app.heard) hkept)

/-- A payload that an application has newly heard has been delivered in that step. -/
theorem delivers_of_heard {sender : Address}
    (h : x.after.app.heard = (sender, body) :: x.before.app.heard) : x.Delivers sender body := by
  refine ⟨[(sender, body)], ?_, List.mem_singleton_self _⟩
  rw [Beacon.delivered, h, List.reverse_cons]
  rfl

/-- **What is delivered is a payload that the step looks at.** -/
theorem Happens.of_delivers (hx : x.Happens) {sender : Address} (h : x.Delivers sender body) :
    ∃ m, x.Regards m ∧ m.sender = sender ∧ m.message.IsPayload body := by
  obtain ⟨new, hnew, hmem⟩ := h
  have silent (hsame : x.after.app.heard = x.before.app.heard) : new = [] := by
    unfold Beacon.delivered at hnew
    rw [hsame] at hnew
    exact List.self_eq_append_right.1 hnew
  rcases hx.of_payload with ⟨hsame, -⟩ | ⟨m, body', hm, hbody, -, -, hheard | ⟨-, hsame⟩⟩
  · rw [silent hsame] at hmem
    exact absurd hmem List.not_mem_nil
  · unfold Beacon.delivered at hnew
    rw [hheard, List.reverse_cons] at hnew
    rw [← List.append_cancel_left hnew, List.mem_singleton] at hmem
    obtain ⟨rfl, rfl⟩ := Prod.mk.inj hmem
    exact ⟨m, hm, rfl, hbody⟩
  · rw [silent hsame] at hmem
    exact absurd hmem List.not_mem_nil

/-- **A payload of its own is counted as echoed** only when an acknowledgement for the node repeats
it. -/
theorem Happens.of_countsEcho {α : Type} [Application α] {x : Moment α} (hx : x.Happens)
    (h : x.CountsEcho) : ∃ m echo, x.heard = some m ∧ m.message = .ack echo ∧
      m.dest = x.before.node.own ∧
      echoes echo x.before.node.rounds.held x.before.node.outgoing = true := by
  unfold CountsEcho at h
  rw [hx.payloadsEchoed_after] at h
  exact hx.acts.of_payloadsEchoed h

end Moment

end RadioRing
