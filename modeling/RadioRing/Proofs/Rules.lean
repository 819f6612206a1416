import RadioRing.Proofs.Reception

/-!
# Proofs/Rules — what several rules have in common

A message that is put aside changes nothing else, a payload moves every listener in the same way,
what a message shows of its sender changes nothing if the sender has its place, and **a giver waits
or lets go of its token** (`hearAsGiver_eq`).
-/

namespace RadioRing

/-- The message is a payload of a token of that round. -/
def Inbound.Carries (m : Inbound) (round : UInt32) : Prop :=
  ∃ body, m.message = .data round body ∨ m.message = .retry round body

theorem Inbound.Carries.round_eq {m : Inbound} {round round' : UInt32} (h : m.Carries round)
    (h' : m.Carries round') : round = round' := by
  obtain ⟨body, h | h⟩ := h <;> obtain ⟨body', h' | h'⟩ := h' <;> rw [h] at h' <;>
    first | exact (Message.data.inj h').1 | exact (Message.retry.inj h').1 | exact absurd h' nofun

theorem Inbound.Carries.tag_ne_ack {m : Inbound} {round : UInt32} (h : m.Carries round) :
    m.message.tag ≠ .ack := by
  obtain ⟨body, h | h⟩ := h <;> rw [h] <;> nofun

namespace Node

variable {α : Type} {n : Node} {r : Reaction α} {m : Inbound} {round : UInt32}

/-- Putting a message aside changes nothing that a rule of the ring looks at: the message waits, or
one that came before it does. -/
theorem fst_putAside (n : Node) (m : Inbound) : ∃ deferred framesDropped,
    (n.putAside m).1 = { n with deferred, stats.framesDropped := framesDropped } ∧
      (deferred = n.deferred ∨ deferred = some m) := by
  unfold putAside
  split
  · exact ⟨n.deferred, _, rfl, Or.inl rfl⟩
  · exact ⟨_, n.stats.framesDropped, rfl, Or.inr rfl⟩

theorem outranked_iff {holder : Address} : n.outranked round holder = true ↔
    n.rounds.held < round ∨ round = n.rounds.held ∧ holder < n.own := by
  simp only [outranked, Bool.or_eq_true, Bool.and_eq_true, decide_eq_true_iff]

/-- A message of somebody who has its place in the table changes nothing in it. -/
theorem readmission_eq_nil (h : n.table.isEligible m.sender = true) : n.readmission m = [] := by
  simp only [readmission, h, not_true_eq_false, and_false, if_false]

/-! ## Listening -/

/-- The node when it looks at a message: nothing is put aside, and the silence begins anew. -/
def awake (n : Node) (now : Timestamp) : Node :=
  { n with deferred := none, timers.watchdog := .after now n.settings.timings.watchdog }

/-- **A listener whose watchdog has not run out looks at one message**: first at one that was put
aside. -/
theorem listen_eq [Application α] (app : α) {clock : Readings} (heard : Option Inbound)
    (h : n.timers.watchdog.elapsed clock.start = false) : n.listen app clock heard =
      match n.deferred.or heard with
      | none => { node := n, app, transition := .goTo .listening }
      | some m => (n.awake clock.heard).hearAsListener app m := by
  unfold listen
  rw [h]
  rfl

/-- **A payload moves a listener the same way whatever becomes of it**: its sender is taken for the
holder and will get an acknowledgement. -/
theorem hearPayload_eq [Application α] (n : Node) (app : α) (m : Inbound) (body : Bytes)
    (repeated : Bool) : ∃ lastDelivered app' events, n.hearPayload app m body repeated =
      { node := { n with presumedHolder := some m.sender, lastDelivered }
        app := app'
        before := events
        transition :=
          (Transition.goTo (.acknowledging m.sender m.raw)).withMarks (n.readmission m) } := by
  suffices h : ∃ lastDelivered app' events,
      { n with presumedHolder := some m.sender }.takePayload app m.sender body repeated =
        ({ n with presumedHolder := some m.sender, lastDelivered }, app', events) by
    obtain ⟨delivered, app', events, h⟩ := h
    exact ⟨delivered, app', events, by rw [hearPayload, h]⟩
  unfold takePayload
  split
  · exact ⟨n.lastDelivered, _, _, rfl⟩
  · dsimp only
    split <;> exact ⟨_, _, _, rfl⟩

/-- A listener takes every payload for an occasion to acknowledge it. -/
theorem hearAsListener_carries [Application α] (app : α) (hm : m.Carries round) :
    ∃ lastDelivered app' events, n.hearAsListener app m =
      { node := { n with presumedHolder := some m.sender, lastDelivered }
        app := app'
        before := events
        transition :=
          (Transition.goTo (.acknowledging m.sender m.raw)).withMarks (n.readmission m) } := by
  obtain ⟨body, hm | hm⟩ := hm
  · unfold hearAsListener
    simp only [hm]
    exact n.hearPayload_eq app m body false
  · unfold hearAsListener
    simp only [hm]
    exact n.hearPayload_eq app m body true

/-! ## Holding -/

/-- **A holder that hears a payload yields or stays**, according to which token is better. -/
theorem hearAsHolder_carries (app : α) (hm : m.Carries round)
    (he : n.table.isEligible m.sender = true) : n.hearAsHolder app m =
      if n.outranked round m.sender = true then n.yieldTo app m
      else { node := n, app, transition := .goTo .awaitingEcho } := by
  obtain ⟨body, hm | hm⟩ := hm
  all_goals
    unfold hearAsHolder
    simp only [hm, he, true_and, readmission_eq_nil he]
    rfl

/-! ## Offering -/

/-- The round of an offer is the one that is offered. -/
theorem offeredRound_eq {taker : Address} {session : Session}
    (h : n.offer = some (.turn taker session round)) (other : UInt32) :
    n.offeredRound?.getD other = round := by
  rw [offeredRound?, h]
  rfl

/-- Only an offer that names the node can be outdated. -/
theorem turn_of_judge_outdated {taker : Address} (h : n.judge taker m = .outdated) :
    ∃ session round, m.message = .turn n.own session round := by
  unfold judge at h
  dsimp only at h
  split at h
  · split at h <;> exact absurd h nofun
  · repeat' split at h
    all_goals exact absurd h nofun
  · repeat' split at h
    all_goals exact absurd h nofun
  · rename_i target session round hm
    split at h
    · exact absurd h nofun
    · split at h
      · split at h <;> exact absurd h nofun
      · split at h
        · rename_i htarget
          exact ⟨session, round, htarget ▸ hm⟩
        · exact absurd h nofun
  · exact absurd h nofun

/-- **A giver goes on waiting, or it lets go of its token** and listens to what made it do so. -/
theorem hearAsGiver_eq (n : Node) (app : α) (taker : Address) (m : Inbound) :
    (∃ before emission, n.hearAsGiver app taker m =
        { node := n, app, before, emission
          transition := (Transition.goTo (.awaitingTaker taker)).withMarks (n.readmission m) } ∧
      (n.judge taker m = .pending ∧ emission = none ∨
        n.judge taker m = .outdated ∧ emission = some (.ack m.sender m.raw)) ∧
      ∀ e ∈ emission, e = .ack m.sender m.raw ∧
        ∃ target session round, m.message = .turn target session round) ∨
    ∃ presumedHolder stats before, n.hearAsGiver app taker m =
        { node := { n with
            master := false, offer := none, deferred := some m, presumedHolder, stats }
          app, before
          transition := (Transition.goTo .listening).withMarks (n.readmission m) } ∧
      (n.judge taker m = .acknowledged ∨ n.judge taker m = .superseded) := by
  unfold hearAsGiver
  cases hj : n.judge taker m with
  | pending => exact Or.inl ⟨_, _, rfl, Or.inl ⟨rfl, rfl⟩, nofun⟩
  | outdated =>
    obtain ⟨session, round, message⟩ := turn_of_judge_outdated hj
    exact Or.inl ⟨_, _, rfl, Or.inr ⟨rfl, rfl⟩, fun e he =>
      ⟨(Option.some.inj he).symm, n.own, session, round, message⟩⟩
  | acknowledged => exact Or.inr ⟨_, _, _, rfl, Or.inl rfl⟩
  | superseded => exact Or.inr ⟨_, _, _, rfl, Or.inr rfl⟩

end Node

end RadioRing
