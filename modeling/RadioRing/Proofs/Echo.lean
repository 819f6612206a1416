import RadioRing.Proofs.Isolation
import RadioRing.Proofs.OnTime

/-!
# Proofs/Echo — which acknowledgement ends a turn

An acknowledgement is compared with a payload byte for byte, so **its echo stands for one payload at
most** (`echo_identifies_payload`).  A node that waits for an echo compares what is acknowledged
with its payload in the round that it holds by then.  That is the round in which the payload was
said, raised by **every offer of the token that has named the node since** (`Station.Run.held_eq`),
though such an offer changes nothing about the frames that are on the air.  So an acknowledgement
ends the turn exactly if it repeats the payload in the highest of these rounds
(`echo_ends_turn_iff`): as long as none is higher than the round of the payload, the frame that was
said is recognized.  **From the first higher offer on, its echo passes for a garbled one**, and the
echo of a frame that nobody has said ends the turn.
-/

namespace RadioRing

/-! ## Frames of a payload -/

/-- The bytes are a frame of the payload `p`, said for the first time or again. -/
def IsFrameOf (echo : Bytes) (p : UInt32 × Bytes) : Prop :=
  echo = (Message.data p.1 p.2).encode ∨ echo = (Message.retry p.1 p.2).encode

instance {echo : Bytes} {p : UInt32 × Bytes} : Decidable (IsFrameOf echo p) :=
  inferInstanceAs (Decidable (_ ∨ _))

/-- **The comparison is the one byte for byte.** -/
theorem echoes_iff {echo body : Bytes} {round : UInt32} :
    echoes echo round body = true ↔ IsFrameOf echo (round, body) := by
  cases echo with
  | nil => simp [echoes, startsAsPayload, IsFrameOf, Message.encode]
  | cons first rest =>
    simp [echoes, startsAsPayload, IsFrameOf, Message.encode, Message.fields, Message.tag,
      or_and_right]

/-- **The frames of a payload are those that are read as it.** -/
theorem isFrameOf_iff_decode {echo : Bytes} {p : UInt32 × Bytes} :
    IsFrameOf echo p ↔ ∃ m, Message.decode echo = .ok m ∧ m.payload? = some p := by
  constructor
  · rintro (rfl | rfl)
    · exact ⟨_, Message.decode_encode (Message.wellFormed_data ..), rfl⟩
    · exact ⟨_, Message.decode_encode (Message.wellFormed_retry ..), rfl⟩
  · rintro ⟨m, hread, hpayload⟩
    obtain ⟨kind, rest, rfl, hfields⟩ := Message.of_decode hread
    obtain rfl := (Message.of_decodeFields hfields).1
    rcases Message.payload?_eq_some_iff.1 hpayload with rfl | rfl
    · obtain ⟨round, body, rfl, hm⟩ := Message.of_decodePayload hfields
      obtain ⟨rfl, rfl⟩ := Message.data.inj hm
      exact Or.inl rfl
    · obtain ⟨round, body, rfl, hm⟩ := Message.of_decodePayload hfields
      obtain ⟨rfl, rfl⟩ := Message.retry.inj hm
      exact Or.inr rfl

/-- A frame is a frame of one payload only. -/
theorem IsFrameOf.unique {echo : Bytes} {p q : UInt32 × Bytes} (hp : IsFrameOf echo p)
    (hq : IsFrameOf echo q) : p = q := by
  obtain ⟨m, hm, hmp⟩ := isFrameOf_iff_decode.1 hp
  obtain ⟨m', hm', hmq⟩ := isFrameOf_iff_decode.1 hq
  obtain rfl := Except.ok.inj (hm.symm.trans hm')
  exact Option.some.inj (hmp.symm.trans hmq)

/-- The comparison part by part: the tag, a round of which no byte is missing, and the body. -/
def echoesInParts (echo : Bytes) (round : UInt32) (body : Bytes) : Bool :=
  match echo with
  | [] => false
  | first :: rest =>
    (first = Tag.data.byte || first = Tag.retry.byte) &&
      (4 ≤ rest.length && rest.take 4 = wordBytes round && rest.drop 4 = body)

theorem echoesInParts_eq (echo : Bytes) (round : UInt32) (body : Bytes) :
    echoesInParts echo round body = echoes echo round body := by
  cases echo with
  | nil => rfl
  | cons first rest =>
    have hparts : 4 ≤ rest.length ∧ rest.take 4 = wordBytes round ∧ rest.drop 4 = body ↔
        rest = wordBytes round ++ body := by
      constructor
      · rintro ⟨-, htake, hdrop⟩
        rw [← htake, ← hdrop, List.take_append_drop]
      · rintro rfl
        exact ⟨by simp [wordBytes], List.take_left' rfl, List.drop_left' rfl⟩
    rw [Bool.eq_iff_iff]
    simp only [echoesInParts, echoes, startsAsPayload, List.drop_succ_cons, List.drop_zero,
      Bool.and_eq_true, decide_eq_true_eq, and_assoc, hparts]

/-- **An echo acknowledges one payload at most.**  Compared part by part or as a whole, it
acknowledges a payload exactly if it is the frame of its first sending or of a repetition, byte for
byte, which is so exactly if it is read as one of these two messages; and no echo acknowledges two
payloads that differ in their rounds or in their bodies. -/
theorem echo_identifies_payload (echo : Bytes) :
    (∀ round body, echoesInParts echo round body = echoes echo round body) ∧
    (∀ round body, echoes echo round body = true ↔
      echo = (Message.data round body).encode ∨ echo = (Message.retry round body).encode) ∧
    (∀ round body, echoes echo round body = true ↔
      Message.decode echo = .ok (.data round body) ∨
        Message.decode echo = .ok (.retry round body)) ∧
    ∀ round body round' body', echoes echo round body = true → echoes echo round' body' = true →
      round = round' ∧ body = body' := by
  refine ⟨echoesInParts_eq echo, fun round body => echoes_iff, fun round body => ?_,
    fun round body round' body' h h' => ?_⟩
  · rw [echoes_iff, isFrameOf_iff_decode]
    constructor
    · rintro ⟨m, hread, hpayload⟩
      rcases Message.payload?_eq_some_iff.1 hpayload with rfl | rfl
      · exact Or.inl hread
      · exact Or.inr hread
    · rintro (hread | hread)
      · exact ⟨_, hread, rfl⟩
      · exact ⟨_, hread, rfl⟩
  · exact Prod.mk.inj ((echoes_iff.1 h).unique (echoes_iff.1 h'))

/-- The frame of a payload of two bytes is no frame of the first of them alone. -/
theorem echo_identifies_payload_of_two : echoes [1, 4, 0, 0, 0, 5, 7] 4 [5, 7] = true ∧
    Message.decode [1, 4, 0, 0, 0, 5, 7] = .ok (.retry 4 [5, 7]) ∧
    ¬echoes [1, 4, 0, 0, 0, 5, 7] 4 [5] = true := by
  obtain ⟨-, -, reads, unique⟩ := echo_identifies_payload [1, 4, 0, 0, 0, 5, 7]
  have hecho : echoes [1, 4, 0, 0, 0, 5, 7] 4 [5, 7] = true := (reads 4 [5, 7]).2 (Or.inr rfl)
  exact ⟨hecho, rfl, fun h => absurd (unique _ _ _ _ hecho h).2 (by decide)⟩

/-- The highest of some rounds is not above `k` if none of them is. -/
theorem foldl_max_le_iff {k : UInt32} : ∀ {rounds : List UInt32} {r : UInt32},
    rounds.foldl max r ≤ k ↔ r ≤ k ∧ ∀ x ∈ rounds, x ≤ k
  | [], r => by simp
  | x :: rounds, r => by
    rw [List.foldl_cons, foldl_max_le_iff, List.forall_mem_cons, ← and_assoc]
    simp only [UInt32.le_iff_toNat_le, toNat_max, Nat.max_le]

theorem foldl_max_eq_iff {rounds : List UInt32} {r : UInt32} :
    rounds.foldl max r = r ↔ ∀ x ∈ rounds, x ≤ r := by
  have hle : r ≤ rounds.foldl max r := (foldl_max_le_iff.1 (UInt32.le_refl _)).1
  refine ⟨fun h => (foldl_max_le_iff.1 (UInt32.le_of_eq h)).2, fun h => ?_⟩
  exact UInt32.le_antisymm (foldl_max_le_iff.2 ⟨UInt32.le_refl _, h⟩) hle

/-! ## What is held -/

namespace Node

variable {α : Type} {n : Node} {m : Inbound}

/-- The round that the message offers to the node, in its network. -/
def offered? (n : Node) (m : Inbound) : Option UInt32 :=
  match m.message with
  | .turn target session round =>
    if target = n.own ∧ n.session = some session then some round else none
  | _ => none

/-- **A holder takes the round of every offer that names it**, and of no other message. -/
theorem rounds_hearAsHolder (n : Node) (app : α) (m : Inbound) :
    (n.hearAsHolder app m).node.rounds = (n.offered? m).elim n.rounds n.rounds.accept := by
  unfold hearAsHolder offered?
  cases m.message with
  | turn target session round =>
    dsimp only
    by_cases hsession : n.session = some session
    · by_cases htarget : target = n.own
      · simp [hsession, htarget]
      · simp only [hsession, htarget, ne_eq, not_true_eq_false, if_false, false_and]
        split <;> rfl
    · simp [hsession]
  | _ =>
    dsimp only
    repeat' split
    all_goals rfl

/-- What a node that waits for an echo makes of an acknowledgement. -/
theorem hearAsHolder_ack (n : Node) (app : α) {echo : Bytes} (message : m.message = .ack echo)
    (meant : m.dest = n.own) : ∃ before, n.hearAsHolder app m =
      { node := { n with
          stats.payloadsEchoed := n.stats.payloadsEchoed +
            (if IsFrameOf echo (n.rounds.held, n.outgoing) then 1 else 0) }
        app, before
        transition := (Transition.goTo
          (if IsFrameOf echo (n.rounds.held, n.outgoing) then .offering
            else if startsAsPayload echo then .repeating
            else .awaitingEcho)).withMarks (n.readmission m) } := by
  unfold hearAsHolder
  simp only [message, meant, ne_eq, not_true_eq_false, if_false, echoes_iff]
  split
  · exact ⟨_, rfl⟩
  · split <;> exact ⟨_, rfl⟩

end Node

variable {α : Type} [Application α]

namespace Moment

variable {x : Moment α} {m : Inbound}

omit [Application α] in
/-- The round that is offered to the node in this step. -/
def offered? (x : Moment α) : Option UInt32 := x.heard.bind x.before.node.offered?

/-- A node that waits for an echo makes of a message what a holder makes of it. -/
theorem Happens.reaction_of_awaitingEcho (h : x.Happens)
    (waits : x.before.node.state = .awaitingEcho) (hears : x.heard = some m) :
    x.reaction = x.before.node.hearAsHolder x.before.app m := by
  obtain ⟨⟨d, awaited, early⟩, -⟩ := h.polls_of_heard hears
  rw [Node.awaited?, waits] at awaited
  obtain rfl := Option.some.inj awaited
  rw [Deadline.elapsed_earlier, Bool.or_eq_false_iff] at early
  exact h.reaction_eq (by simp [Node.react, waits, Node.awaitEcho, early, hears])

/-- **While its payload is on the air a node holds what it held**, or the higher round that it is
offered. -/
theorem Happens.held_after (h : x.Happens) (air : x.before.node.state.isOnAir = true) :
    x.after.node.rounds.held =
      x.offered?.elim x.before.node.rounds.held (max x.before.node.rounds.held) := by
  rw [h.rounds_after, offered?]
  cases hears : x.heard with
  | none =>
    have hreact := h.steps.reacts
    rw [hears] at hreact
    unfold Node.react at hreact
    obtain hs | hs := State.isOnAir_iff.1 air
    · rw [hs] at hreact
      rw [← Except.ok.inj hreact, Node.awaitEcho]
      repeat' split
      all_goals rfl
    · rw [hs] at hreact
      rw [← Except.ok.inj hreact, Node.repeatPayload]
      split <;> rfl
  | some m =>
    have waits : x.before.node.state = .awaitingEcho := by
      obtain ⟨⟨d, awaited, -⟩, -⟩ := h.polls_of_heard hears
      obtain hs | hs := State.isOnAir_iff.1 air
      · exact hs
      · rw [Node.awaited?, hs] at awaited
        exact absurd awaited (Option.not_mem_none d)
    rw [h.reaction_of_awaitingEcho waits hears, Node.rounds_hearAsHolder, Option.bind_some]
    cases x.before.node.offered? m <;> rfl

/-- **What an acknowledgement does to a node that waits for an echo**, according to the payload that
it looks for. -/
theorem Happens.of_ack (h : x.Happens) (waits : x.before.node.state = .awaitingEcho)
    (hears : x.heard = some m) {echo : Bytes} (message : m.message = .ack echo)
    (meant : m.dest = x.before.node.own) {p : UInt32 × Bytes}
    (looks : p = (x.before.node.rounds.held, x.before.node.outgoing)) :
    x.reaction.emission = none ∧
    (x.after.node.state = .offering ↔ IsFrameOf echo p) ∧
    x.after.node.stats.payloadsEchoed =
      x.before.node.stats.payloadsEchoed + (if IsFrameOf echo p then 1 else 0) ∧
    (¬IsFrameOf echo p → startsAsPayload echo = true → x.after.node.state = .repeating) ∧
    (¬IsFrameOf echo p → startsAsPayload echo = false →
      x.after.node = (x.before.node.applyMarks (x.before.node.readmission m)).1) := by
  obtain ⟨before, hack⟩ := x.before.node.hearAsHolder_ack x.before.app message meant
  have hr := (h.reaction_of_awaitingEcho waits hears).trans hack
  rw [← looks] at hr
  have hstate := h.state_after
  have hcount := h.payloadsEchoed_after
  rw [hr] at hstate hcount
  refine ⟨by rw [hr], ?_, hcount, fun other starts => ?_, fun other starts => ?_⟩
  · rw [hstate, Transition.next_withMarks, Transition.next_goTo]
    split
    · exact iff_of_true rfl ‹_›
    · refine iff_of_false (fun hnext => ?_) ‹_›
      split at hnext <;> exact absurd hnext nofun
  · rw [hstate, Transition.next_withMarks, Transition.next_goTo, if_neg other, if_pos starts]
  · have hnext : x.reaction.transition.next = .awaitingEcho := by
      rw [hr, Transition.next_withMarks, Transition.next_goTo, if_neg other, starts]
      rfl
    have hmarks : x.reaction.transition.marks = x.before.node.readmission m := by
      rw [hr]
      rfl
    have hnode : { x.reaction.node with stats := x.reaction.booked x.taken } = x.before.node := by
      rw [hr, if_neg other]
      cases x.taken <;> rfl
    have hafter := h.node_after_of_unarmed (Or.inr (by rw [hnext]; rfl))
    rw [hnode, hnext, hmarks, ← waits] at hafter
    obtain ⟨evictions, admissions, hsame⟩ :=
      Node.fst_applyMarks (x.before.node.readmission m) x.before.node
    rw [hafter, hsame]

end Moment

namespace Station

variable {s t : Station α} {run late : List (Moment α)} {x : Moment α}

/-- **What is held while a payload is on the air**: the round that was held, raised by every offer
that has named the node since. -/
theorem Run.held_eq (h : s.Run run t) (same : ∀ z ∈ run, z.before.node.state ≠ .speaking)
    (air : t.node.state.isOnAir = true) :
    t.node.rounds.held = (run.filterMap Moment.offered?).foldl max s.node.rounds.held := by
  induction h with
  | refl => rfl
  | @step run z h hz ih =>
    obtain ⟨hrun, hlast⟩ := List.forall_mem_append.1 same
    rw [hz.state_after] at air
    obtain ⟨hair, -⟩ := hz.acts.upholds (hlast z List.mem_cons_self) air
    -- An offer that names the node raises what is held, and no other message does.
    rw [hz.held_after hair, ih hrun hair, List.filterMap_append, List.foldl_append]
    cases hoffer : z.offered? with
    | none => rw [List.filterMap_cons_none hoffer]; rfl
    | some round => rw [List.filterMap_cons_some hoffer]; rfl

/-- **What a node looks for while it waits for an echo**: its payload, in the highest round that has
been offered to it since it said the payload. -/
theorem Run.payload_eq (hr : s.Reachable) (h : s.Run (x :: late) t) {p : UInt32 × Bytes}
    (said : x.payload? = some p) (same : ∀ z ∈ late, z.before.node.state ≠ .speaking)
    (air : t.node.state.isOnAir = true) :
    (t.node.rounds.held, t.node.outgoing) =
      ((late.filterMap Moment.offered?).foldl max p.1, p.2) := by
  obtain ⟨rfl, hx, hrun⟩ := h.of_cons
  obtain ⟨due, hn⟩ := hr.upholds_payload? hx said
  have hheld : x.after.node.rounds.held = p.1 :=
    (hr.of_speaksIn hx ⟨p.2, Moment.says_of_payload? said⟩).2
  rw [hrun.held_eq same air, hheld, (hrun.upholds same (fun _ => hn) air).body]

end Station

/-- **Which acknowledgement ends a turn.**  A node has said the payload `p` in the step `x`, for the
first time or again, and after the steps `late` of the same turn, in which it has heard anything, it
still waits for an echo.  Then it hears an acknowledgement that is meant for it.  The step succeeds
and says nothing.  The turn ends, with one echo more in the books, exactly if what is acknowledged
is a frame of that payload **in the highest of its round and the rounds that were offered to the
node in `late`**.  Anything else that starts as a payload does makes the node say its payload again
at once, and the rest shows it no more than that the sender is alive.  So a frame that was said in
`x` ends the turn exactly if no higher round has been offered since. -/
theorem echo_ends_turn_iff {s t : Station α} {x : Moment α} {late : List (Moment α)}
    {p : UInt32 × Bytes} {ρ : Type} [Radio ρ] {radio : ρ} {clock : Readings} {m : Inbound}
    {echo : Bytes} (h : s.Reachable) (run : s.Run (x :: late) t) (said : x.payload? = some p)
    (same : ∀ z ∈ late, z.before.node.state ≠ .speaking) (waits : t.node.state = .awaitingEcho)
    (hears : (t.hear radio clock.start).1 = some m) (message : m.message = .ack echo)
    (meant : m.dest = t.node.own) :
    let sought := ((late.filterMap Moment.offered?).foldl max p.1, p.2)
    ∃ (y : Moment α) (radio' : ρ), y.HappensOn radio radio' ∧ y.before = t ∧ y.clock = clock ∧
      y.reaction.emission = none ∧
      (y.after.node.state = .offering ↔ IsFrameOf echo sought) ∧
      y.after.node.stats.payloadsEchoed =
        t.node.stats.payloadsEchoed + (if IsFrameOf echo sought then 1 else 0) ∧
      (¬IsFrameOf echo sought → startsAsPayload echo = true →
        y.after.node.state = .repeating) ∧
      (¬IsFrameOf echo sought → startsAsPayload echo = false →
        y.after.node = (t.node.applyMarks (t.node.readmission m)).1) ∧
      (IsFrameOf echo p → (y.after.node.state = .offering ↔
        ∀ round ∈ late.filterMap Moment.offered?, round ≤ p.1)) := by
  intro sought
  obtain ⟨⟨s', radio', events⟩, hstep⟩ := Station.exists_step_of_state (by rw [waits]; nofun)
    (by rw [waits]; nofun) (by rw [waits]; nofun) (by rw [waits]; nofun) radio clock
  obtain ⟨y, hy, rfl, rfl, rfl⟩ := Station.exists_happensOn hstep
  have heard : y.heard = some m := by
    obtain ⟨-, -, hheard, -⟩ := hy
    exact hheard.symm.trans hears
  have looks : sought = (y.before.node.rounds.held, y.before.node.outgoing) :=
    (run.payload_eq h said same (by rw [waits]; rfl)).symm
  obtain ⟨quiet, ends, counts, again, ignores⟩ :=
    hy.happens.of_ack waits heard message meant looks
  refine ⟨y, radio', hy, rfl, rfl, quiet, ends, counts, again, ignores, fun hp => ends.trans ?_⟩
  rw [← foldl_max_eq_iff]
  refine ⟨fun hs => congrArg Prod.fst (hs.unique hp), fun htop => ?_⟩
  rwa [show sought = p from Prod.ext htop rfl]

/-! ## An overtaken payload -/

/-- Node 1 says its payload in round 6, node 2 offers it the token of round 9, and node 3
acknowledges the payload. -/
def overtaken? : Option (Station Beacon × List (Moment Beacon) × Station Beacon) :=
  Station.played? ⟨1⟩ [
    (.zero, []),
    (.zero, [⟨some ⟨2⟩, ⟨1⟩, (Message.joinAck ⟨1⟩ ⟨7⟩ 5 true [⟨1⟩, ⟨2⟩, ⟨3⟩]).encode⟩]),
    (.zero, []),
    (.ofMillis 100, [⟨some ⟨2⟩, .everyone, (Message.turn ⟨1⟩ ⟨7⟩ 9).encode⟩]),
    (.ofMillis 200, [⟨some ⟨3⟩, ⟨1⟩, (Message.ack (Message.data 6 [1, 0, 0]).encode).encode⟩])]

theorem isSome_overtaken? : overtaken?.isSome = true := by decide +kernel

def overtakenRun : Station Beacon × List (Moment Beacon) × Station Beacon :=
  overtaken?.get isSome_overtaken?

/-- The moment in which the payload is said. -/
def overtakenPayload : Moment Beacon := overtakenRun.2.1.get ⟨2, by decide +kernel⟩

/-- The moment in which the offer is heard. -/
def overtakingOffer : Moment Beacon := overtakenRun.2.1.get ⟨3, by decide +kernel⟩

/-- The moment in which the acknowledgement is heard. -/
def overtakenEcho : Moment Beacon := overtakenRun.2.1.get ⟨4, by decide +kernel⟩

theorem run_overtaken : overtakenPayload.before.Reachable ∧
    overtakenPayload.before.Run [overtakenPayload, overtakingOffer] overtakenEcho.before ∧
    overtakenEcho.Happens := by
  obtain ⟨boot, hrun⟩ :=
    Station.run_of_played? (p := overtakenRun) (Option.some_get isSome_overtaken?).symm
  have hsplit : overtakenRun.2.1 = overtakenRun.2.1.take 4 ++ overtakenEcho ::
      overtakenRun.2.1.drop 5 :=
    Station.eq_take_append_get overtakenRun.2.1 ⟨4, by decide +kernel⟩
  have hearly : overtakenRun.2.1.take 4 =
      overtakenRun.2.1.take 2 ++ [overtakenPayload, overtakingOffer] := rfl
  rw [hsplit] at hrun
  obtain ⟨hrun, hy, -⟩ := hrun.of_middle
  rw [hearly] at hrun
  obtain ⟨u, hfirst, hlate⟩ := hrun.of_append
  obtain ⟨rfl, -, -⟩ := hlate.of_cons
  exact ⟨hfirst.reachable boot.reachable, hlate, hy⟩

/-- Node 3 acknowledges the frame to node 1. -/
def echoOf (frame : Bytes) : Inbound :=
  ⟨⟨3⟩, ⟨1⟩, .ack frame, (Message.ack frame).encode⟩

/-- The radio that brings that acknowledgement. -/
def radioEchoing (frame : Bytes) : ScriptedRadio :=
  { inbox := [⟨some ⟨3⟩, ⟨1⟩, (Message.ack frame).encode⟩] }

/-- **The echo of the frame that node 1 has said makes it say the payload again**, and the echo of a
frame that it has never said ends its turn. -/
theorem echo_ends_turn_iff_of_overtaken :
    overtakenPayload.payload? = some (6, [1, 0, 0]) ∧
    (∃ (y : Moment Beacon) (radio : ScriptedRadio),
      y.HappensOn (radioEchoing (Message.data 6 [1, 0, 0]).encode) radio ∧
      y.before = overtakenEcho.before ∧ y.after.node.state = .repeating) ∧
    ∃ (y : Moment Beacon) (radio : ScriptedRadio),
      y.HappensOn (radioEchoing (Message.data 9 [1, 0, 0]).encode) radio ∧
      y.before = overtakenEcho.before ∧ y.after.node.state = .offering := by
  obtain ⟨reachable, run, -⟩ := run_overtaken
  have said : overtakenPayload.payload? = some (6, [1, 0, 0]) := by decide +kernel
  have sought : ([overtakingOffer].filterMap Moment.offered?).foldl max 6 = 9 := by decide +kernel
  refine ⟨said, ?_, ?_⟩
  · have hears : (overtakenEcho.before.hear (radioEchoing (Message.data 6 [1, 0, 0]).encode)
        (Readings.still (.ofMillis 200)).start).1 =
          some (echoOf (Message.data 6 [1, 0, 0]).encode) := by decide +kernel
    obtain ⟨y, radio, hy, hbefore, -, -, -, -, again, -⟩ :=
      echo_ends_turn_iff reachable run said (by decide +kernel) (by decide +kernel) hears rfl
        (by decide +kernel)
    rw [sought] at again
    exact ⟨y, radio, hy, hbefore, again (by decide) (by decide)⟩
  · have hears : (overtakenEcho.before.hear (radioEchoing (Message.data 9 [1, 0, 0]).encode)
        (Readings.still (.ofMillis 200)).start).1 =
          some (echoOf (Message.data 9 [1, 0, 0]).encode) := by decide +kernel
    obtain ⟨y, radio, hy, hbefore, -, -, ends, -⟩ :=
      echo_ends_turn_iff reachable run said (by decide +kernel) (by decide +kernel) hears rfl
        (by decide +kernel)
    rw [sought] at ends
    exact ⟨y, radio, hy, hbefore, ends.2 (by decide)⟩

/-- **Not every echo of the last payload that was sent ends the turn.** -/
theorem not_echo_ends_turn : ¬∀ {s : Station Beacon} {x y : Moment Beacon}
    {late : List (Moment Beacon)} {f : Message} {m : Inbound}, s.Reachable →
    s.Run (x :: late) y.before → x.Says f → f.tag = .data ∨ f.tag = .retry → x.taken = true →
    (∀ z ∈ late, z.before.node.state ≠ .speaking ∧ z.payload? = none) → y.Happens →
    y.before.node.state = .awaitingEcho →
    y.before.node.timers.turn.elapsed y.clock.start = false →
    y.before.node.timers.retry.elapsed y.clock.start = false → y.heard = some m →
    m.dest = y.before.node.own → m.message = .ack f.encode → y.after.node.state = .offering := by
  intro claimed
  obtain ⟨reachable, run, happens⟩ := run_overtaken
  have said : overtakenPayload.Says (.data 6 [1, 0, 0]) := by
    unfold Moment.Says
    decide +kernel
  have ends := claimed (m := echoOf (Message.data 6 [1, 0, 0]).encode) reachable run said
    (Or.inl rfl) (by decide +kernel) (by decide +kernel) happens (by decide +kernel)
    (by decide +kernel) (by decide +kernel) (by decide +kernel) (by decide +kernel) rfl
  exact absurd ends (by decide +kernel)

end RadioRing
