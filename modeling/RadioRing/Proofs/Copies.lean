import RadioRing.Medium.Rules
import RadioRing.Proofs.Inboxes

/-!
# Proofs/Copies — what comes through the air

A `Medium.Operation` is one thing that is done to a medium.  Along a list of them, `Medium.shots`
are the transmissions that were made, each with the medium it was made on, and `Medium.receptions`
what one node has received.  **What a node has received since it was attached, followed by what
waits for it, are copies of what the others have transmitted since**
(`Medium.exists_comesThrough_performAll`): in order, each transmission at most once, all of them
where nothing can be lost, and none where everything is.
-/

namespace RadioRing

namespace Loss

open Float.Model in
/-- A chance of zero, of either sign, is no chance. -/
theorem isPossible_of_zero {l : Loss} (h : (l.value == 0.0) = true) : l.isPossible = false := by
  obtain ⟨⟨model⟩⟩ := l
  have heq : UnpackedFloat.beq model.unpack (.zero .positive) = true := h
  refine decide_eq_false fun hlt => ?_
  have hlt : UnpackedFloat.lt (.zero .positive) model.unpack = true :=
    of_decide_eq_true (p := Float.toModel 0.0 < model) hlt
  -- Only a zero equals zero, with either sign, and no zero is above another one.
  cases hm : model.unpack with
  | zero sign =>
    rw [hm] at hlt
    exact absurd hlt nofun
  | notANumber =>
    rw [hm] at hlt
    exact absurd hlt nofun
  | infinity sign =>
    rw [hm] at heq
    cases sign <;> exact absurd heq nofun
  | finite sign mantissa exponent pos =>
    rw [hm] at heq
    cases sign <;> exact absurd heq nofun

/-- **A loss of zero strikes nothing**, and takes nothing from the stream. -/
theorem strikes_of_zero {l : Loss} (h : (l.value == 0.0) = true) (random : Random.Stream) :
    l.strikes random = (false, random) := by
  rw [strikes, isPossible_of_zero h, if_neg Bool.false_ne_true]

/-- **A loss of one strikes everything.** -/
theorem strikes_of_one {l : Loss} (h : l.value = 1.0) (random : Random.Stream) :
    l.strikes random = (true, random) := by
  have possible : (0.0 : Float) < 1.0 := by decide
  have certain : twoTo 64 ≤ Random.Stream.coinWords 1.0 := by decide +kernel
  rw [strikes, isPossible, h, if_pos (decide_eq_true possible), Random.Stream.coin, if_pos certain]

end Loss

namespace Medium

/-! ## Operations on a medium -/

/-- One thing that can be done to a medium. -/
inductive Operation (φ : Type)
  | attach (a : Address)
  | detach (a : Address)
  | send (sender dest : Address) (bytes : Bytes)
  | receive (a : Address)
  | setLoss (setting : Float)
  | setFilter (filter : φ)
  | record
  | advance (d : Duration)

/-- A transmission, and the medium that it was made on. -/
structure Shot (φ : Type) where
  air : Medium φ
  envelope : Envelope

/-- The copies of a transmission were not rejected and could not be lost. -/
def Shot.Safe {φ : Type} (s : Shot φ) : Prop :=
  (s.air.loss.value == 0.0) = true ∧ s.air.filter = none

/-- The copies of a transmission could not but be lost. -/
def Shot.Lost {φ : Type} (s : Shot φ) : Prop := s.air.loss.value = 1.0

/-- The copy of a transmission. -/
def Shot.copy {φ : Type} (s : Shot φ) : Packet := s.envelope.copy

/-- What has come through of some transmissions: of each at most one copy, **none that could not but
be lost, and every one that could not be lost.** -/
inductive ComesThrough {φ : Type} : List (Shot φ) → List Packet → Prop
  | nothing : ComesThrough [] []
  | copy {s : Shot φ} {rest : List (Shot φ)} {packets : List Packet} (spared : ¬s.Lost) :
      ComesThrough rest packets → ComesThrough (s :: rest) (s.copy :: packets)
  | loss {s : Shot φ} {rest : List (Shot φ)} {packets : List Packet} (risky : ¬s.Safe) :
      ComesThrough rest packets → ComesThrough (s :: rest) packets

namespace ComesThrough

variable {φ : Type} {shots shots' : List (Shot φ)} {packets packets' : List Packet}

theorem append (h : ComesThrough shots packets) (h' : ComesThrough shots' packets') :
    ComesThrough (shots ++ shots') (packets ++ packets') := by
  induction h with
  | nothing => exact h'
  | copy spared _ ih => exact .copy spared ih
  | loss risky _ ih => exact .loss risky ih

/-- **What comes through are copies in the order of the transmissions.** -/
theorem sublist (h : ComesThrough shots packets) : packets.Sublist (shots.map Shot.copy) := by
  induction h with
  | nothing => exact .slnil
  | copy _ _ ih => exact ih.cons_cons _
  | loss _ _ ih => exact ih.cons _

/-- Where nothing can be lost, everything comes through. -/
theorem eq_of_safe (h : ComesThrough shots packets) (safe : ∀ s ∈ shots, s.Safe) :
    packets = shots.map Shot.copy := by
  induction h with
  | nothing => rfl
  | copy _ _ ih => exact congrArg _ (ih (List.forall_mem_cons.1 safe).2)
  | loss risky _ _ => exact absurd (List.forall_mem_cons.1 safe).1 risky

/-- Where everything is lost, nothing comes through. -/
theorem eq_nil_of_lost (h : ComesThrough shots packets) (lost : ∀ s ∈ shots, s.Lost) :
    packets = [] := by
  induction h with
  | nothing => rfl
  | copy spared _ _ => exact absurd (List.forall_mem_cons.1 lost).1 spared
  | loss _ _ ih => exact ih (List.forall_mem_cons.1 lost).2

end ComesThrough

/-- What waits for a node. -/
def inbox {φ : Type} (m : Medium φ) (a : Address) : List Packet := (m.inboxes.get? a).getD []

variable {φ : Type} [DropFilter φ]

/-- The medium after an operation. -/
def perform (m : Medium φ) : Operation φ → Medium φ
  | .attach a => m.attach a
  | .detach a => m.detach a
  | .send sender dest bytes => (m.transmit sender dest bytes).2
  | .receive a => (m.receive a).2
  | .setLoss setting => m.setLoss (.ofFloat setting)
  | .setFilter filter => m.setFilter filter
  | .record => m.record
  | .advance d => m.advance d

/-- The medium after some operations, one after the other. -/
def performAll (m : Medium φ) (operations : List (Operation φ)) : Medium φ :=
  operations.foldl perform m

/-- The transmission that an operation makes: a send that does not fail makes one. -/
def shot? (m : Medium φ) : Operation φ → Option (Shot φ)
  | .send sender dest bytes =>
    match (m.transmit sender dest bytes).1 with
    | .ok () => some ⟨m, m.now, sender, dest, bytes⟩
    | .error _ => none
  | _ => none

/-- What `a` receives by an operation. -/
def reception? (m : Medium φ) (a : Address) : Operation φ → Option Packet
  | .receive b => if b = a then (m.receive b).1 else none
  | _ => none

/-- The transmissions that are made by some operations, the first one first. -/
def shots (m : Medium φ) : List (Operation φ) → List (Shot φ)
  | [] => []
  | o :: rest => (m.shot? o).toList ++ (m.perform o).shots rest

/-- What `a` receives by some operations, the first packet first. -/
def receptions (m : Medium φ) (a : Address) : List (Operation φ) → List Packet
  | [] => []
  | o :: rest => (m.reception? a o).toList ++ (m.perform o).receptions a rest

/-- The transmissions that others than `a` make. -/
def shotsOfOthers (m : Medium φ) (a : Address) (operations : List (Operation φ)) : List (Shot φ) :=
  (m.shots operations).filter (·.envelope.sender ≠ a)

variable {m : Medium φ} {o : Operation φ} {operations early late : List (Operation φ)}
  {a sender dest : Address} {bytes : Bytes} {loss : Loss} {e : Envelope} {waiting : List Packet}

theorem performAll_append (m : Medium φ) (early late : List (Operation φ)) :
    m.performAll (early ++ late) = (m.performAll early).performAll late :=
  List.foldl_append

theorem performAll_middle (m : Medium φ) (early late : List (Operation φ)) (o : Operation φ) :
    m.performAll (early ++ o :: late) = (m.performAll (early ++ [o])).performAll late := by
  rw [← performAll_append, List.append_assoc, List.singleton_append]

/-! ## A send -/

/-- A send from outside changes nothing. -/
theorem transmit_of_not_attached (hs : m.isAttached sender = false) :
    m.transmit sender dest bytes = (.error .detached, m) := by
  rw [transmit, hs, if_neg Bool.false_ne_true]

theorem fst_transmit_of_attached (hs : m.isAttached sender = true) :
    (m.transmit sender dest bytes).1 = .ok () := by
  rw [transmit, hs, if_pos rfl]

/-- What a send does to a medium. -/
structure Sends (m : Medium φ) (sender dest : Address) (bytes : Bytes) : Prop where
  /-- It fails exactly if its sender is not attached. -/
  fails_iff : (∃ error, (m.transmit sender dest bytes).1 = .error error) ↔
    m.isAttached sender = false
  /-- Then nothing at all is changed. -/
  unchanged : ∀ error, (m.transmit sender dest bytes).1 = .error error →
    (m.transmit sender dest bytes).2 = m
  /-- Otherwise it is recorded once, whatever becomes of its copies. -/
  recorded : (m.transmit sender dest bytes).1 = .ok () →
    (m.transmit sender dest bytes).2.recorded =
      m.recorded.map (⟨m.now, sender, dest, bytes⟩ :: ·)

/-- **A send fails exactly if its sender is not attached**, and is recorded otherwise. -/
theorem sends (m : Medium φ) (sender dest : Address) (bytes : Bytes) :
    m.Sends sender dest bytes := by
  cases hs : m.isAttached sender with
  | false =>
    have refused : m.transmit sender dest bytes = (.error .detached, m) :=
      transmit_of_not_attached hs
    refine ⟨iff_of_true ⟨_, congrArg Prod.fst refused⟩ hs, fun _ _ => congrArg Prod.snd refused, ?_⟩
    rw [refused]
    nofun
  | true =>
    have taken : (m.transmit sender dest bytes).1 = .ok () := fst_transmit_of_attached hs
    refine ⟨iff_of_false ?_ (by rw [hs]; nofun), fun error h => ?_, fun _ => ?_⟩
    · rintro ⟨error, h⟩
      exact absurd (taken.symm.trans h) nofun
    · exact absurd (taken.symm.trans h) nofun
    · rw [transmit, hs, if_pos rfl]
      dsimp only
      rw [waits_of_spread.1]

/-- A send is a transmission if its sender is attached. -/
theorem shot?_send (m : Medium φ) (sender dest : Address) (bytes : Bytes) :
    m.shot? (.send sender dest bytes) =
      if m.isAttached sender then some ⟨m, m.now, sender, dest, bytes⟩ else none := by
  unfold shot?
  dsimp only
  cases hs : m.isAttached sender with
  | false => rw [transmit_of_not_attached hs, if_neg Bool.false_ne_true]
  | true => rw [fst_transmit_of_attached hs, if_pos rfl]

/-! ## What becomes of the copies -/

/-- A filter that does not exist does not come to be. -/
theorem filter_keeps_none (loss : Loss) (e : Envelope) (receiver : Address)
    (random : Random.Stream) : (keeps loss e receiver (none : Option φ) random).2.1 = none := by
  unfold keeps
  split <;> rfl

/-- A copy that is kept is not the sender's, and its loss was not certain. -/
theorem of_keeps_true {receiver : Address} {filter : Option φ} {random : Random.Stream}
    (h : (keeps loss e receiver filter random).1 = true) :
    receiver ≠ e.sender ∧ loss.value ≠ 1.0 := by
  unfold keeps at h
  split at h
  · exact absurd h nofun
  · refine ⟨‹_›, fun certain => ?_⟩
    simp only [Loss.strikes_of_one certain] at h
    split at h <;> simp at h

/-- A copy that another node misses could have been lost or been filtered out. -/
theorem of_keeps_false {receiver : Address} {filter : Option φ} {random : Random.Stream}
    (h : (keeps loss e receiver filter random).1 = false) (other : receiver ≠ e.sender) :
    ¬((loss.value == 0.0) = true ∧ filter = none) := by
  rintro ⟨zero, rfl⟩
  unfold keeps at h
  rw [if_neg other] at h
  simp [Loss.strikes_of_zero zero] at h

/-- A copy reaches the receivers only. -/
theorem get?_spread_of_not_mem {receivers : List Address} : ∀ {m : Medium φ}, a ∉ receivers →
    (spread loss e receivers m).inboxes.get? a = m.inboxes.get? a := by
  induction receivers with
  | nil => exact fun _ => rfl
  | cons receiver rest ih =>
    intro m ha
    obtain ⟨hne, hrest⟩ := List.ne_and_not_mem_of_not_mem_cons ha
    unfold spread
    dsimp only
    rw [ih hrest]
    dsimp only
    split
    · rw [AddressMap.get?_insert, if_neg hne]
    · rfl

/-- What becomes of the copy of a transmission for `a`: it waits behind the others or is lost. -/
def Gets (m : Medium φ) (a : Address) (e : Envelope) (waiting waiting' : List Packet) : Prop :=
  (waiting' = waiting ++ [e.copy] ∧ a ≠ e.sender ∧ m.loss.value ≠ 1.0) ∨
    (waiting' = waiting ∧ (a = e.sender ∨ ¬((m.loss.value == 0.0) = true ∧ m.filter = none)))

/-- **Every receiver gets one copy or none.** -/
theorem get?_spread {receivers : List Address} : ∀ {m : Medium φ}, receivers.Nodup →
    a ∈ receivers → m.inboxes.get? a = some waiting → ∃ waiting',
      (spread m.loss e receivers m).inboxes.get? a = some waiting' ∧
        m.Gets a e waiting waiting' := by
  suffices hspread : ∀ {m m' : Medium φ}, receivers.Nodup → a ∈ receivers →
      m'.inboxes.get? a = some waiting → (m.filter = none → m'.filter = none) → ∃ waiting',
        (spread m.loss e receivers m').inboxes.get? a = some waiting' ∧
          m.Gets a e waiting waiting' from
    fun {m} nodup mem hget => hspread nodup mem hget id
  induction receivers with
  | nil => exact fun _ mem => absurd mem List.not_mem_nil
  | cons receiver rest ih =>
    intro m m' nodup mem hget hfilter
    obtain ⟨hnot, nodup⟩ := List.nodup_cons.1 nodup
    unfold spread
    dsimp only
    by_cases ha : a = receiver
    · subst ha
      rw [get?_spread_of_not_mem hnot]
      dsimp only
      cases hk : (keeps m.loss e a m'.filter m'.random).1 with
      | true =>
        obtain ⟨other, spared⟩ := of_keeps_true hk
        refine ⟨_, ?_, Or.inl ⟨rfl, other, spared⟩⟩
        rw [if_pos rfl, AddressMap.get?_insert, if_pos rfl, hget]
        rfl
      | false =>
        refine ⟨_, ?_, Or.inr ⟨rfl, ?_⟩⟩
        · rw [if_neg Bool.false_ne_true, hget]
        · by_cases own : a = e.sender
          · exact Or.inl own
          · exact Or.inr fun safe => of_keeps_false hk own ⟨safe.1, hfilter safe.2⟩
    · refine ih nodup ((List.mem_cons.1 mem).resolve_left ha) ?_ fun hnone => ?_
      · dsimp only
        split
        · rw [AddressMap.get?_insert, if_neg ha, hget]
        · exact hget
      · dsimp only
        rw [hfilter hnone]
        exact filter_keeps_none ..

theorem nodup_keys {β : Type} (m : AddressMap β) : m.keys.Nodup :=
  m.pairwise_keys.imp Address.ne_of_lt

/-- **A transmission brings every attached node one copy or none.** -/
theorem get?_transmit (dest : Address) (bytes : Bytes) (hs : m.isAttached sender = true)
    (hget : m.inboxes.get? a = some waiting) :
    ∃ waiting', (m.transmit sender dest bytes).2.inboxes.get? a = some waiting' ∧
      m.Gets a ⟨m.now, sender, dest, bytes⟩ waiting waiting' := by
  have mem : a ∈ m.inboxes.keys :=
    AddressMap.contains_iff_mem_keys.1 (AddressMap.contains_iff.2 ⟨_, hget⟩)
  rw [transmit, if_pos hs]
  exact get?_spread (nodup_keys _) mem hget

/-! ## From one attachment on -/

omit [DropFilter φ] in
theorem isAttached_iff : m.isAttached a = true ↔ ∃ waiting, m.inboxes.get? a = some waiting :=
  AddressMap.contains_iff

omit [DropFilter φ] in
theorem get?_attach (m : Medium φ) (a b : Address) :
    (m.attach b).inboxes.get? a = if a = b then some [] else m.inboxes.get? a :=
  AddressMap.get?_insert ..

omit [DropFilter φ] in
theorem get?_detach (m : Medium φ) (a b : Address) :
    (m.detach b).inboxes.get? a = if a = b then none else m.inboxes.get? a :=
  AddressMap.get?_erase ..

omit [DropFilter φ] in
/-- A node receives from its own inbox only. -/
theorem get?_receive_of_ne {b : Address} (hb : b ≠ a) :
    (m.receive b).2.inboxes.get? a = m.inboxes.get? a := by
  unfold receive
  split
  · exact (AddressMap.get?_insert ..).trans (if_neg hb.symm)
  · rfl

omit [DropFilter φ] in
/-- **What is received is the first packet that waited.** -/
theorem exists_receive (hget : m.inboxes.get? a = some waiting) : ∃ waiting',
    (m.receive a).2.inboxes.get? a = some waiting' ∧
      (m.receive a).1.toList ++ waiting' = waiting := by
  unfold receive
  rw [hget]
  cases waiting with
  | nil => exact ⟨[], hget, rfl⟩
  | cons p rest => exact ⟨rest, (AddressMap.get?_insert ..).trans (if_pos rfl), rfl⟩

/-- **No operation but its attachment gives a node an inbox.** -/
theorem get?_perform_of_none (hget : m.inboxes.get? a = none) (hattach : o ≠ .attach a) :
    (m.perform o).inboxes.get? a = none := by
  cases o with
  | setLoss | setFilter | record | advance => exact hget
  | attach b =>
    have other : a ≠ b := fun h => hattach (congrArg _ h.symm)
    exact (m.get?_attach a b).trans ((if_neg other).trans hget)
  | detach b =>
    refine (m.get?_detach a b).trans ?_
    split
    · rfl
    · exact hget
  | receive b =>
    by_cases hb : b = a
    · subst hb
      change (m.receive b).2.inboxes.get? b = none
      rw [receive, hget]
      exact hget
    · exact (get?_receive_of_ne hb).trans hget
  | send sender dest bytes =>
    have absent : a ∉ m.inboxes.keys := by
      rw [← AddressMap.contains_iff_mem_keys, AddressMap.contains_iff, hget]
      rintro ⟨_, h⟩
      exact absurd h nofun
    change (m.transmit sender dest bytes).2.inboxes.get? a = none
    rw [transmit]
    split
    · exact (get?_spread_of_not_mem absent).trans hget
    · exact hget

/-- Among the operations, `a` is attached for the last time between `early` and `late`, and not
detached again. -/
structure AttachedLast (operations : List (Operation φ)) (a : Address)
    (early late : List (Operation φ)) : Prop where
  split : operations = early ++ .attach a :: late
  attached : .attach a ∉ late
  kept : .detach a ∉ late

/-- **A node that is attached in the end** has been attached on the way and left alone since, unless
it was attached from the start and left alone all the time. -/
theorem attached_since : ∀ {m : Medium φ}, (m.performAll operations).isAttached a = true →
    (∃ early late, AttachedLast operations a early late) ∨
    m.isAttached a = true ∧ .attach a ∉ operations ∧ .detach a ∉ operations := by
  -- The first operation matters only if none of the others attaches the node again.
  induction operations with
  | nil => exact fun {_} attached => Or.inr ⟨attached, List.not_mem_nil, List.not_mem_nil⟩
  | cons o rest ih =>
    intro m attached
    rcases ih attached with ⟨early, late, last⟩ | ⟨between, hattach, hdetach⟩
    · exact Or.inl ⟨o :: early, late, congrArg (o :: ·) last.split, last.attached, last.kept⟩
    · obtain ⟨waiting, hwaiting⟩ := isAttached_iff.1 between
      by_cases ho : o = .attach a
      · exact Or.inl ⟨[], rest, by rw [ho]; rfl, hattach, hdetach⟩
      · have before : m.isAttached a = true := by
          refine isAttached_iff.2 (Option.ne_none_iff_exists'.1 fun hnone => ?_)
          exact absurd ((get?_perform_of_none hnone ho).symm.trans hwaiting) nofun
        have kept : o ≠ .detach a := by
          rintro rfl
          exact absurd (((m.get?_detach a a).trans (if_pos rfl)).symm.trans hwaiting) nofun
        exact Or.inr ⟨before, by simp [Ne.symm ho, hattach], by simp [Ne.symm kept, hdetach]⟩

/-- **What an operation adds to the packets of a node**, read and waiting, is what comes through of
the transmission that it makes. -/
theorem exists_comesThrough_perform (hget : m.inboxes.get? a = some waiting)
    (hattach : o ≠ .attach a) (hdetach : o ≠ .detach a) : ∃ waiting' packets,
      (m.perform o).inboxes.get? a = some waiting' ∧
      (m.reception? a o).toList ++ waiting' = waiting ++ packets ∧
      ComesThrough ((m.shot? o).toList.filter (·.envelope.sender ≠ a)) packets := by
  have quiet {m' : Medium φ} (h : m'.inboxes.get? a = some waiting) : ∃ waiting' packets,
      m'.inboxes.get? a = some waiting' ∧ waiting' = waiting ++ packets ∧
      ComesThrough ([] : List (Shot φ)) packets :=
    ⟨waiting, [], h, (List.append_nil _).symm, .nothing⟩
  cases o with
  | setLoss | setFilter | record | advance => exact quiet hget
  | attach b =>
    have other : a ≠ b := fun h => hattach (congrArg _ h.symm)
    exact quiet ((m.get?_attach a b).trans ((if_neg other).trans hget))
  | detach b =>
    have other : a ≠ b := fun h => hdetach (congrArg _ h.symm)
    exact quiet ((m.get?_detach a b).trans ((if_neg other).trans hget))
  | receive b =>
    by_cases hb : b = a
    · subst hb
      obtain ⟨waiting', hget', hread⟩ := exists_receive hget
      refine ⟨waiting', [], hget', ?_, .nothing⟩
      rw [reception?, if_pos rfl, hread, List.append_nil]
    · rw [reception?, if_neg hb]
      exact quiet ((get?_receive_of_ne hb).trans hget)
  | send sender dest bytes =>
    rw [shot?_send]
    cases hs : m.isAttached sender with
    | false =>
      have same : (m.perform (.send sender dest bytes)) = m :=
        congrArg Prod.snd (transmit_of_not_attached hs)
      exact quiet (same.symm ▸ hget)
    | true =>
      obtain ⟨waiting', hget', gets⟩ := get?_transmit dest bytes hs hget
      rw [if_pos rfl, Option.toList_some, List.filter_cons]
      rcases gets with ⟨rfl, other, spared⟩ | ⟨rfl, own | risky⟩
      · refine ⟨_, _, hget', rfl, ?_⟩
        rw [if_pos (decide_eq_true (Ne.symm other))]
        exact .copy spared .nothing
      · refine ⟨_, [], hget', (List.append_nil _).symm, ?_⟩
        rw [if_neg (by simp [own])]
        exact .nothing
      · refine ⟨_, [], hget', (List.append_nil _).symm, ?_⟩
        split
        · exact .loss risky .nothing
        · exact .nothing

/-- **What a node gets while it stays attached** is what comes through of what the others transmit
meanwhile. -/
theorem exists_comesThrough_performAll : ∀ {m : Medium φ} {waiting : List Packet},
    m.inboxes.get? a = some waiting → .attach a ∉ operations → .detach a ∉ operations →
      ∃ waiting' packets, (m.performAll operations).inboxes.get? a = some waiting' ∧
        m.receptions a operations ++ waiting' = waiting ++ packets ∧
        ComesThrough (m.shotsOfOthers a operations) packets := by
  induction operations with
  | nil => exact fun {_ waiting} hget _ _ => ⟨waiting, [], hget, (List.append_nil _).symm, .nothing⟩
  | cons o rest ih =>
    intro m waiting hget hattach hdetach
    obtain ⟨hattach, hattaches⟩ := List.ne_and_not_mem_of_not_mem_cons hattach
    obtain ⟨hdetach, hdetaches⟩ := List.ne_and_not_mem_of_not_mem_cons hdetach
    obtain ⟨between, first, hbetween, hfirst, through⟩ :=
      exists_comesThrough_perform hget (Ne.symm hattach) (Ne.symm hdetach)
    obtain ⟨waiting', later, hwaiting, hlater, throughLater⟩ := ih hbetween hattaches hdetaches
    refine ⟨waiting', first ++ later, hwaiting, ?_, ?_⟩
    · rw [receptions, List.append_assoc, hlater, ← List.append_assoc, hfirst, List.append_assoc]
    · rw [shotsOfOthers, shots, List.filter_append]
      exact through.append throughLater

/-! ## What is recorded -/

/-- **An operation adds to the record the transmission that it makes.** -/
theorem recorded_perform (ho : o ≠ .record) : (m.perform o).recorded =
    m.recorded.map (((m.shot? o).map Shot.envelope).toList ++ ·) := by
  have same (h : (m.perform o).recorded = m.recorded) (none : m.shot? o = none) :
      (m.perform o).recorded = m.recorded.map (((m.shot? o).map Shot.envelope).toList ++ ·) := by
    rw [h, none]
    exact (Option.map_id' (x := m.recorded)).symm
  cases o with
  | record => exact absurd rfl ho
  | receive b => exact same (m.waits_of_receive b).2.2 rfl
  | attach | detach | setLoss | setFilter | advance => exact same rfl rfl
  | send sender dest bytes =>
    cases hs : m.isAttached sender with
    | false =>
      refine same (congrArg (fun p => p.2.recorded) (transmit_of_not_attached hs)) ?_
      rw [shot?_send, hs, if_neg Bool.false_ne_true]
    | true =>
      rw [shot?_send, hs, if_pos rfl]
      exact (m.sends sender dest bytes).recorded (fst_transmit_of_attached hs)

/-- **What is recorded is what was transmitted since.** -/
theorem recorded_performAll : ∀ {m : Medium φ} {seen : List Envelope}, m.recorded = some seen →
    .record ∉ operations → (m.performAll operations).recorded =
      some (((m.shots operations).map Shot.envelope).reverse ++ seen) := by
  induction operations with
  | nil => exact fun hseen _ => hseen
  | cons o rest ih =>
    intro m seen hseen hrecord
    obtain ⟨ho, hrest⟩ := List.ne_and_not_mem_of_not_mem_cons hrecord
    have hfirst := recorded_perform (m := m) (Ne.symm ho)
    rw [hseen, Option.map_some] at hfirst
    refine (ih hfirst hrest).trans (congrArg some ?_)
    rw [shots]
    cases m.shot? o <;> simp

/-! ## All together -/

theorem of_shot? {s : Shot φ} (hs : m.shot? o = some s) :
    s.air.isAttached s.envelope.sender = true := by
  cases o with
  | send sender dest bytes =>
    rw [shot?_send, Option.ite_none_right_eq_some] at hs
    obtain ⟨attached, hshot⟩ := hs
    obtain rfl := Option.some.inj hshot
    exact attached
  | _ => exact absurd hs nofun

/-- **Nobody transmits who is not attached.** -/
theorem isAttached_of_mem_shots : ∀ {m : Medium φ}, ∀ s ∈ m.shots operations,
    s.air.isAttached s.envelope.sender = true := by
  induction operations with
  | nil => exact fun {_} _ hs => absurd hs List.not_mem_nil
  | cons o rest ih =>
    intro m s hs
    rcases List.mem_append.1 hs with hs | hs
    · exact of_shot? (Option.mem_toList.1 hs)
    · exact ih s hs

/-- What a node `a` has got of some transmissions. -/
structure Conveys (shots : List (Shot φ)) (a : Address) (got : List Packet) : Prop where
  /-- They were made by others, who were attached. -/
  senders : ∀ s ∈ shots, s.air.isAttached s.envelope.sender = true ∧ s.envelope.sender ≠ a
  /-- It got copies of them, in order and of each at most one. -/
  inOrder : got.Sublist (shots.map Shot.copy)
  /-- It got all if none could be lost or rejected. -/
  all : (∀ s ∈ shots, s.Safe) → got = shots.map Shot.copy
  /-- It got none if all were bound to be lost. -/
  none : (∀ s ∈ shots, s.Lost) → got = []

/-- **What a node has got since it was attached for the last time**, read and waiting, is what it
could get of what the others have transmitted. -/
theorem AttachedLast.conveys (m : Medium φ) (last : AttachedLast operations a early late) :
    Conveys ((m.performAll (early ++ [.attach a])).shotsOfOthers a late) a
      ((m.performAll (early ++ [.attach a])).receptions a late ++
        (m.performAll operations).inbox a) := by
  have empty : (m.performAll (early ++ [.attach a])).inboxes.get? a = some [] := by
    rw [performAll_append]
    exact ((m.performAll early).get?_attach a a).trans (if_pos rfl)
  obtain ⟨waiting, packets, hwaiting, hgot, through⟩ :=
    exists_comesThrough_performAll empty last.attached last.kept
  rw [last.split, performAll_middle m early late, inbox, hwaiting, Option.getD_some, hgot,
    List.nil_append]
  refine ⟨fun s hs => ?_, through.sublist, through.eq_of_safe, through.eq_nil_of_lost⟩
  obtain ⟨hs, other⟩ := List.mem_filter.1 hs
  exact ⟨isAttached_of_mem_shots s hs, of_decide_eq_true other⟩

/-- **What is on record is what was transmitted since recording began**, the first one first. -/
theorem frames_performAll (m : Medium φ) (early : List (Operation φ)) (hrecord : .record ∉ late) :
    (m.performAll (early ++ .record :: late)).frames =
      ((m.performAll (early ++ [.record])).shots late).map Shot.envelope := by
  have begun : (m.performAll (early ++ [.record])).recorded = some [] := by
    rw [performAll_append]
    rfl
  rw [performAll_middle m early late, frames, recorded_performAll begun hrecord]
  simp

end Medium

open Medium in
/-- **The medium neither forges, duplicates nor reorders.**  Whatever is done to a medium that has
just been made: a node that is attached in the end has been attached for the last time at some
point, and what it has received since then, followed by what waits for it, are copies of what other
attached nodes have transmitted since, in order and of each transmission at most one; all of them if
there was no loss and no filter, and none if the loss was one.  A send fails exactly if its sender
is not attached, and then changes nothing; and once recording has begun, the record has every
transmission exactly once, whatever became of its copies. -/
theorem medium_conveys {φ : Type} [DropFilter φ] (setting : Float) (seed : UInt64)
    (operations : List (Operation φ)) :
    let start : Medium φ := .ofSeed (.ofFloat setting) seed
    (∀ a, (start.performAll operations).isAttached a = true →
      ∃ early late, AttachedLast operations a early late) ∧
    (∀ a early late, AttachedLast operations a early late →
      let attached := start.performAll (early ++ [.attach a])
      Conveys (attached.shotsOfOthers a late) a
        (attached.receptions a late ++ (start.performAll operations).inbox a)) ∧
    (∀ sender dest bytes, (start.performAll operations).Sends sender dest bytes) ∧
    ∀ early late, operations = early ++ .record :: late → .record ∉ late →
      (start.performAll operations).frames =
        ((start.performAll (early ++ [.record])).shots late).map Shot.envelope := by
  intro start
  refine ⟨fun a attached => (attached_since attached).resolve_right fun ⟨before, _⟩ => ?_,
    fun a early late last => last.conveys start, fun _ _ _ => sends _ _ _ _,
    fun early late split hrecord => ?_⟩
  · obtain ⟨waiting, hwaiting⟩ := isAttached_iff.1 before
    exact absurd hwaiting nofun
  · rw [split]
    exact frames_performAll start early hrecord

/-! ## A noisy afternoon -/

namespace Medium

/-- Nodes 2 and 1 are attached, and node 1 sends a frame. -/
def quietMorning : List (Operation (List DropRule)) :=
  [.attach ⟨2⟩, .attach ⟨1⟩, .send ⟨1⟩ .everyone [6]]

/-- Node 1 sends more and more: one frame reaches everybody, a filter keeps the next one from node
2, another one is lost with all its copies, and the last one gets through again.  Node 2 sends as
well, and so does node 3, which has been detached. -/
def noisyAfternoon : List (Operation (List DropRule)) :=
  [.attach ⟨3⟩, .detach ⟨3⟩, .record, .send ⟨1⟩ ⟨3⟩ [7], .receive ⟨2⟩,
    .setFilter [{ receiver := some ⟨2⟩, remaining := some 1 }], .send ⟨1⟩ ⟨2⟩ [8], .setLoss 1.5,
    .send ⟨1⟩ ⟨2⟩ [9], .setLoss (-0.5), .send ⟨2⟩ ⟨1⟩ [10], .send ⟨3⟩ ⟨2⟩ [11],
    .send ⟨1⟩ .everyone [12]]

/-- The medium when node 2 has been attached again. -/
def noonMedium : Medium (List DropRule) :=
  (ofSeed (.ofFloat 0.0) 0).performAll (quietMorning ++ [.attach ⟨2⟩])

/-- The medium in the end. -/
def nightMedium : Medium (List DropRule) :=
  (ofSeed (.ofFloat 0.0) 0).performAll (quietMorning ++ .attach ⟨2⟩ :: noisyAfternoon)

end Medium

open Medium in
/-- **Node 2 gets two of the four frames** that node 1 sends while node 2 is attached, the first one
and the last one. -/
theorem medium_conveys_of_noise : nightMedium.isAttached ⟨2⟩ = true ∧
    ((noonMedium.shotsOfOthers ⟨2⟩ noisyAfternoon).map fun s => s.envelope.bytes) =
      [[7], [8], [9], [12]] ∧
    Conveys (noonMedium.shotsOfOthers ⟨2⟩ noisyAfternoon) ⟨2⟩
      [⟨some ⟨1⟩, ⟨3⟩, [7]⟩, ⟨some ⟨1⟩, .everyone, [12]⟩] ∧
    nightMedium.frames.map Envelope.bytes = [[7], [8], [9], [10], [12]] := by
  have got : noonMedium.receptions ⟨2⟩ noisyAfternoon ++ nightMedium.inbox ⟨2⟩ =
      [⟨some ⟨1⟩, ⟨3⟩, [7]⟩, ⟨some ⟨1⟩, .everyone, [12]⟩] := by decide +kernel
  have last : AttachedLast (quietMorning ++ .attach ⟨2⟩ :: noisyAfternoon) ⟨2⟩ quietMorning
      noisyAfternoon := ⟨rfl, by simp [noisyAfternoon], by simp [noisyAfternoon]⟩
  obtain ⟨-, conveys, -, records⟩ :=
    medium_conveys 0.0 0 (quietMorning ++ .attach ⟨2⟩ :: noisyAfternoon)
  have onRecord := records (quietMorning ++ [.attach ⟨2⟩, .attach ⟨3⟩, .detach ⟨3⟩])
    (noisyAfternoon.drop 3) rfl (by simp [noisyAfternoon])
  refine ⟨by decide +kernel, by decide +kernel, got ▸ conveys ⟨2⟩ _ _ last, ?_⟩
  exact (congrArg (List.map Envelope.bytes) onRecord).trans (by decide +kernel)

end RadioRing
