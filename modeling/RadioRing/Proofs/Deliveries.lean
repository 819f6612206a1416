import RadioRing.Proofs.Duplicates
import RadioRing.Proofs.Payloads

/-!
# Proofs/Deliveries — each turn is delivered once

In its turn a node says one payload, and says it again until somebody echoes it.  A listener may
miss any of that.  What it does hear of a turn is **delivered once and acknowledged every time**
(`turns_delivered_once`): the payload is taken when the first frame of the turn is heard, and what
follows repeats the last payload taken.

The listener tells a repetition by its sender and its bytes, not by its round.  So a turn of which
only repetitions are heard, and whose payload is the one that was taken last, **looks like more of
the turn before it** and is acknowledged without being delivered (`Turn.Repeats`).
-/

namespace RadioRing

variable {α : Type}

/-- The states of a listener: it listens, or it is about to acknowledge a payload. -/
def State.isAttending : State → Bool
  | listening | acknowledging .. => true
  | _ => false

namespace Moment

/-- The station is a listener all through the step. -/
def Attends (x : Moment α) : Prop :=
  x.before.node.state.isAttending = true ∧ x.after.node.state.isAttending = true

/-- The payload `m`, which the step takes up, is acknowledged in the moments `late` after it: the
node waits and says nothing until its answer is due, and the first thing it does then is to say the
acknowledgement, which repeats the frame of `m`. -/
def Acknowledges (x : Moment α) (late : List (Moment α)) (m : Inbound) : Prop :=
  ∃ waits rest, late = waits ++ rest ∧
    (∀ y ∈ waits, x.after.node.timers.reply.elapsed y.clock.start = false ∧
      y.reaction.emission = none) ∧
    ∀ y ∈ rest.head?, y.reaction.emission = some (.ack m.sender m.raw)

end Moment

/-- The payloads that are taken up in a run, the first one first. -/
def heardPayloads (run : List (Moment α)) : List Inbound := run.filterMap Moment.takesUp

/-- The turn of a node, as it is heard. -/
structure Turn where
  holder : Address
  round : UInt32
  body : Bytes
deriving DecidableEq, Repr

namespace Turn

variable {t : Turn} {ms : List Inbound} {last : Option (Address × Bytes)}

/-- What is said in a turn: the payload, and so many times the payload again. -/
def said (t : Turn) (repetitions : Nat) : List Message :=
  .data t.round t.body :: .replicate repetitions (.retry t.round t.body)

/-- The payloads `ms` come from the turn, in order, and any may be missing. -/
structure Heard (t : Turn) (ms : List Inbound) : Prop where
  sender : ∀ m ∈ ms, m.sender = t.holder
  said : ∃ repetitions, (ms.map Inbound.message).Sublist (t.said repetitions)

/-- Nothing but repetitions is heard of the turn, and they repeat the payload taken last. -/
def Repeats (t : Turn) (last : Option (Address × Bytes)) (ms : List Inbound) : Prop :=
  (∀ m ∈ ms, m.message.tag = .retry) ∧ last = some (t.holder, t.body)

instance : Decidable (t.Repeats last ms) := inferInstanceAs (Decidable (_ ∧ _))

/-- Everything that is heard of a turn carries its payload, and from the second frame on it is said
again. -/
theorem Heard.of_cons {m : Inbound} (h : t.Heard (m :: ms)) :
    m.message.IsPayload t.body ∧ ∀ m' ∈ ms, m'.message = .retry t.round t.body := by
  obtain ⟨repetitions, hsaid⟩ := h.said
  rw [List.map_cons] at hsaid
  refine ⟨⟨t.round, ?_⟩, fun m' hm' => ?_⟩
  · rcases List.mem_cons.1 (hsaid.mem List.mem_cons_self) with hdata | hretry
    · exact Or.inl hdata
    · exact Or.inr (List.eq_of_mem_replicate hretry)
  · have hrest : (ms.map Inbound.message).Sublist
        (.replicate repetitions (.retry t.round t.body)) := hsaid.tail
    exact List.eq_of_mem_replicate (hrest.mem (List.mem_map_of_mem hm'))

variable [Application α] {k : Kept α}

/-- Repetitions of the payload that was taken last change nothing. -/
theorem foldl_take_retries (hk : k.last = some (t.holder, t.body)) :
    ∀ {ms : List Inbound}, (∀ m ∈ ms, m.sender = t.holder) →
      (∀ m ∈ ms, m.message = .retry t.round t.body) → ms.foldl Kept.take k = k
  | [], _, _ => rfl
  | m :: ms, hsender, hmessage => by
    obtain ⟨hm, hrest⟩ := List.forall_mem_cons.1 hmessage
    obtain ⟨hs, hsenders⟩ := List.forall_mem_cons.1 hsender
    have hsame : k.take m = k := by
      rw [Kept.take_eq ⟨t.round, Or.inr hm⟩, hm, hs, if_pos ⟨rfl, hk⟩]
    rw [List.foldl_cons, hsame, foldl_take_retries hk hsenders hrest]

/-- **A turn of which anything is heard is taken once**, unless it repeats what was taken last. -/
theorem Heard.foldl_take (h : t.Heard ms) (hne : ms ≠ []) : ms.foldl Kept.take k =
    if t.Repeats k.last ms then k
    else ⟨some (t.holder, t.body), Application.receive k.app t.holder t.body⟩ := by
  cases ms with
  | nil => exact absurd rfl hne
  | cons m ms =>
    obtain ⟨hbody, hretries⟩ := h.of_cons
    obtain ⟨hsender, hsenders⟩ := List.forall_mem_cons.1 h.sender
    have hlast : (k.take m).last = some (t.holder, t.body) := hsender ▸ Kept.last_take hbody
    have hrepeats : t.Repeats k.last (m :: ms) ↔
        m.message.tag = .retry ∧ k.last = some (m.sender, t.body) := by
      have htags : ∀ m' ∈ ms, m'.message.tag = .retry := fun m' hm' => by
        rw [hretries m' hm']
        rfl
      rw [Repeats, List.forall_mem_cons, and_iff_left htags, hsender]
    rw [List.foldl_cons, foldl_take_retries hlast hsenders hretries, Kept.take_eq hbody]
    simp only [hrepeats, hsender]

end Turn

/-- The payload that was taken last when these turns are over, if it was `last` before them. -/
def lastTaken (last : Option (Address × Bytes)) (turns : List (Turn × List (Moment α))) :
    Option (Address × Bytes) :=
  turns.foldl (fun last p =>
    if heardPayloads p.2 = [] then last else some (p.1.holder, p.1.body)) last

variable [Application α]

namespace Moment

variable {x : Moment α} {holder : Address} {echo : Bytes}

/-- A node that is about to acknowledge a payload goes on waiting, or says the acknowledgement. -/
theorem Happens.of_acknowledging (hx : x.Happens)
    (hs : x.before.node.state = .acknowledging holder echo) :
    (x.before.node.timers.reply.elapsed x.clock.start = false ∧ x.reaction.emission = none ∧
      x.after.node.state = .acknowledging holder echo ∧
      x.after.node.timers.reply = x.before.node.timers.reply) ∨
    x.before.node.timers.reply.elapsed x.clock.start = true ∧
      x.reaction.emission = some (.ack holder echo) ∧ x.after.node.state = .listening := by
  have hreact := hx.steps.reacts
  unfold Node.react at hreact
  rw [hs] at hreact
  have hr := (Except.ok.inj hreact).symm
  unfold Node.acknowledge at hr
  cases hd : x.before.node.timers.reply.elapsed x.clock.start with
  | true =>
    rw [hd, if_neg (not_not_intro rfl)] at hr
    rw [hx.state_after, hr]
    exact Or.inr ⟨rfl, rfl, rfl⟩
  | false =>
    rw [hd, if_pos nofun] at hr
    obtain ⟨timers, random, e, a, hn, htimers⟩ := hx.steps.node_eq
    -- A message that comes meanwhile is put aside, which leaves the deadlines alone.
    have hkeeps : x.reaction.node.state = .acknowledging holder echo ∧
        x.reaction.node.timers = x.before.node.timers := by
      rw [hr]
      cases x.heard with
      | none => exact ⟨hs, rfl⟩
      | some m =>
        obtain ⟨deferred, dropped, hput, -⟩ := x.before.node.fst_putAside m
        dsimp only
        rw [hput]
        exact ⟨hs, rfl⟩
    have hnext : x.reaction.transition.next = .acknowledging holder echo := by rw [hr]; rfl
    rw [hn, htimers (hnext.trans hkeeps.1.symm), hkeeps.2]
    exact Or.inl ⟨rfl, by rw [hr], hnext, rfl⟩

end Moment

namespace Station

variable {s t : Station α} {run late : List (Moment α)}

/-- **What a listener keeps is what it makes of the payloads that it takes up**, one after the
other. -/
theorem Run.kept_eq (h : s.Run run t) (attends : ∀ x ∈ run, x.Attends) :
    t.kept = (heardPayloads run).foldl Kept.take s.kept := by
  induction h with
  | refl => rfl
  | @step run x h hx ih =>
    obtain ⟨hrun, hlast⟩ := List.forall_mem_append.1 attends
    have hspeak : x.before.node.state ≠ .speaking := by
      intro hs
      have hattends := (List.forall_mem_singleton.1 hlast).1
      rw [hs] at hattends
      exact absurd hattends nofun
    rw [hx.kept_after hspeak, ih hrun, heardPayloads, heardPayloads, List.filterMap_append,
      List.foldl_append]
    cases ht : x.takesUp with
    | none => rw [List.filterMap_cons_none ht]; rfl
    | some m => rw [List.filterMap_cons_some ht]; rfl

/-- The payload that a listener has taken last when some turns are over. -/
theorem Run.last_kept {turns : List (Turn × List (Moment α))}
    (h : s.Run (turns.map Prod.snd).flatten t)
    (attends : ∀ x ∈ (turns.map Prod.snd).flatten, x.Attends)
    (hears : ∀ p ∈ turns, p.1.Heard (heardPayloads p.2)) :
    t.kept.last = lastTaken s.kept.last turns := by
  induction turns generalizing s with
  | nil => rw [h.eq_of_nil]; rfl
  | cons p turns ih =>
    rw [List.map_cons, List.flatten_cons] at h attends
    obtain ⟨hfirst, hrest⟩ := List.forall_mem_append.1 attends
    obtain ⟨hheard, hears⟩ := List.forall_mem_cons.1 hears
    obtain ⟨u, hu, ht⟩ := h.of_append
    have hlast : u.kept.last =
        if heardPayloads p.2 = [] then s.kept.last else some (p.1.holder, p.1.body) := by
      rw [hu.kept_eq hfirst]
      by_cases hnone : heardPayloads p.2 = []
      · rw [if_pos hnone, hnone]
        rfl
      · rw [if_neg hnone, hheard.foldl_take hnone]
        split
        · exact ‹p.1.Repeats _ _›.2
        · rfl
    rw [ih ht hrest hears, hlast]
    rfl

/-- **Whoever is about to acknowledge waits for its time and does so.** -/
theorem Run.acknowledges {holder : Address} {echo : Bytes} (h : s.Run late t)
    (hs : s.node.state = .acknowledging holder echo) : ∃ waits rest, late = waits ++ rest ∧
      (∀ y ∈ waits, s.node.timers.reply.elapsed y.clock.start = false ∧
        y.reaction.emission = none) ∧
      ∀ y ∈ rest.head?, y.reaction.emission = some (.ack holder echo) := by
  induction late generalizing s with
  | nil => exact ⟨[], [], rfl, List.forall_mem_nil _, by simp⟩
  | cons y late ih =>
    obtain ⟨rfl, hy, hlate⟩ := h.of_cons
    rcases hy.of_acknowledging hs with ⟨early, hsilent, hstate, hreply⟩ | ⟨-, hack, -⟩
    · obtain ⟨waits, rest, rfl, hwaits, hrest⟩ := ih hlate hstate
      rw [hreply] at hwaits
      exact ⟨y :: waits, rest, rfl, List.forall_mem_cons.2 ⟨⟨early, hsilent⟩, hwaits⟩, hrest⟩
    · refine ⟨[], y :: late, rfl, List.forall_mem_nil _, fun z hz => ?_⟩
      obtain rfl : y = z := Option.some.inj hz
      exact hack

end Station

/-- **Each turn is delivered once, and whatever is heard of it is acknowledged.**  A listener hears
one turn after the other, each with any of its frames missing.  Of a turn of which it hears anything
and whose payload its application can unwrap, the application is handed what was wrapped, once and
nothing else, unless nothing but repetitions was heard and they repeat the payload that was taken
last: then it is handed nothing.  Every frame that is taken up is acknowledged, also then. -/
theorem turns_delivered_once {s t : Station α} {run : List (Moment α)}
    {turns : List (Turn × List (Moment α))} (h : s.Run run t) (attends : ∀ x ∈ run, x.Attends)
    (apart : run = (turns.map Prod.snd).flatten)
    (hears : ∀ p ∈ turns, p.1.Heard (heardPayloads p.2)) :
    (∀ early turn stretch late, turns = early ++ (turn, stretch) :: late →
      heardPayloads stretch ≠ [] → ∃ u v, s.Run (early.map Prod.snd).flatten u ∧ u.Run stretch v ∧
        ∀ payload, (Application.unwrap u.app turn.body).1 = some payload → v.app =
          if turn.Repeats (lastTaken s.node.lastDelivered early) (heardPayloads stretch) then u.app
          else Application.deliver (Application.unwrap u.app turn.body).2 turn.holder payload) ∧
    ∀ early x late m, run = early ++ x :: late → x.takesUp = some m → x.Acknowledges late m := by
  refine ⟨?_, ?_⟩
  · rintro early turn stretch late rfl hne
    subst apart
    rw [List.map_append, List.map_cons, List.flatten_append, List.flatten_cons] at h attends
    obtain ⟨hearly, hrest⟩ := List.forall_mem_append.1 attends
    obtain ⟨hstretch, -⟩ := List.forall_mem_append.1 hrest
    obtain ⟨hbefore, hheard⟩ := List.forall_mem_append.1 hears
    obtain ⟨u, hu, hlater⟩ := h.of_append
    obtain ⟨v, hv, -⟩ := hlater.of_append
    refine ⟨u, v, hu, hv, fun payload hopens => ?_⟩
    have hkept := hv.kept_eq hstretch
    rw [(hheard _ List.mem_cons_self).foldl_take hne, hu.last_kept hearly hbefore] at hkept
    rw [← Application.receive_eq hopens]
    have happ := congrArg Kept.app hkept
    rwa [apply_ite Kept.app] at happ
  · rintro early x late m rfl hm
    obtain ⟨-, hx, hlate⟩ := h.of_middle
    exact hlate.acknowledges (hx.of_takesUp hm).1

/-! ## Node 1 listens to two turns of node 2 -/

/-- Node 1, which node 2 has let in, listens to a turn of node 2 and misses the first frame of the
next one, which has the same payload. -/
def listening? : Option (Station Beacon × List (Moment Beacon) × Station Beacon) :=
  (memberVia? ⟨2⟩).bind fun p => (p.2.2.play? [
    (.zero, [⟨some ⟨2⟩, .everyone, (Message.data 6 [5]).encode⟩]), (.zero, []),
    (.zero, [⟨some ⟨2⟩, .everyone, (Message.retry 6 [5]).encode⟩]), (.zero, []),
    (.zero, [⟨some ⟨2⟩, .everyone, (Message.retry 8 [5]).encode⟩]), (.zero, [])]).map
      fun q => (p.2.2, q)

theorem isSome_listening? : listening?.isSome = true := by decide

def listening : Station Beacon × List (Moment Beacon) × Station Beacon :=
  listening?.get isSome_listening?

/-- The two turns, and the moments in which node 1 hears of each. -/
def turnsOfTwo : List (Turn × List (Moment Beacon)) :=
  [(⟨⟨2⟩, 6, [5]⟩, listening.2.1.take 4), (⟨⟨2⟩, 8, [5]⟩, listening.2.1.drop 4)]

theorem run_listening : listening.1.Reachable ∧ listening.1.Run listening.2.1 listening.2.2 := by
  obtain ⟨p, hp, hq⟩ := Option.bind_eq_some_iff.1 (Option.some_get isSome_listening?).symm
  obtain ⟨q, hq, hall⟩ := Option.map_eq_some_iff.1 hq
  obtain ⟨boot, hrun⟩ := Station.run_of_played? hp
  have hlistening : listening = (p.2.2, q) := hall.symm
  rw [hlistening]
  exact ⟨hrun.reachable boot.reachable, Station.run_of_play? hq⟩

theorem attends_listening : ∀ x ∈ listening.2.1, x.Attends := by
  unfold Moment.Attends
  decide

theorem flatten_turnsOfTwo : listening.2.1 = (turnsOfTwo.map Prod.snd).flatten := by
  simp [turnsOfTwo]

theorem heard_turnsOfTwo : ∀ p ∈ turnsOfTwo, p.1.Heard (heardPayloads p.2) := by
  have hfirst : (⟨⟨2⟩, 6, [5]⟩ : Turn).Heard (heardPayloads (listening.2.1.take 4)) :=
    ⟨by decide, 1, by decide⟩
  have hsecond : (⟨⟨2⟩, 8, [5]⟩ : Turn).Heard (heardPayloads (listening.2.1.drop 4)) :=
    ⟨by decide, 1, by decide⟩
  exact List.forall_mem_cons.2 ⟨hfirst, List.forall_mem_singleton.2 hsecond⟩

/-- Node 1 delivers the payload of the first turn once, though it hears it twice, and nothing of the
second turn, of which it acknowledges what it hears at once. -/
theorem turns_delivered_once_of_two :
    (∃ u v, listening.1.Run [] u ∧ u.Run (listening.2.1.take 4) v ∧
      v.app = Application.deliver u.app ⟨2⟩ [5]) ∧
    (∃ u v, listening.1.Run (listening.2.1.take 4) u ∧ u.Run (listening.2.1.drop 4) v ∧
      v.app = u.app) ∧
    (listening.2.1.get ⟨4, by decide⟩).Acknowledges (listening.2.1.drop 5)
      ⟨⟨2⟩, .everyone, .retry 8 [5], [1, 8, 0, 0, 0, 5]⟩ := by
  obtain ⟨honce, hacknowledged⟩ := turns_delivered_once run_listening.2 attends_listening
    flatten_turnsOfTwo heard_turnsOfTwo
  obtain ⟨u, v, hu, hv, hfirst⟩ := honce [] _ _ _ rfl (by decide)
  obtain ⟨u', v', hu', hv', hsecond⟩ := honce [_] _ _ [] rfl (by decide)
  have hnews := hfirst [5] rfl
  have hrepeats := hsecond [5] rfl
  rw [if_neg (by decide)] at hnews
  rw [if_pos (by decide)] at hrepeats
  refine ⟨⟨u, v, hu, hv, hnews⟩, ⟨u', v', ?_, hv', hrepeats⟩, hacknowledged _ _ _ _
    (Station.eq_take_append_get listening.2.1 ⟨4, by decide⟩) (by decide)⟩
  simpa using hu'

/-- **A listener does not deliver every turn that it hears of.** -/
theorem not_turns_delivered_once : ¬∀ (s t : Station Beacon) (run : List (Moment Beacon))
    (turns : List (Turn × List (Moment Beacon))), s.Reachable → s.Run run t →
    (∀ x ∈ run, x.Attends) → run = (turns.map Prod.snd).flatten →
    (∀ p ∈ turns, p.1.Heard (heardPayloads p.2)) →
    turns.Pairwise (fun p q => p.1.round < q.1.round) →
    ∀ early turn stretch late, turns = early ++ (turn, stretch) :: late →
      heardPayloads stretch ≠ [] → ∃ u v, s.Run (early.map Prod.snd).flatten u ∧
        u.Run stretch v ∧ v.app.delivered = u.app.delivered ++ [(turn.holder, turn.body)] := by
  intro hall
  obtain ⟨u, v, hu, hv, hdelivered⟩ := hall _ _ _ turnsOfTwo run_listening.1 run_listening.2
    attends_listening flatten_turnsOfTwo heard_turnsOfTwo (by decide) [_] _ _ [] rfl (by decide)
  have hdrop : listening.2.1.drop 4 =
      [listening.2.1.get ⟨4, by decide⟩] ++ [listening.2.1.get ⟨5, by decide⟩] := rfl
  rw [hdrop] at hv
  obtain ⟨hfirst, -, rfl⟩ := hv.of_concat
  obtain ⟨rfl, -⟩ := hfirst.of_cons
  exact absurd hdelivered (by decide)

end RadioRing
