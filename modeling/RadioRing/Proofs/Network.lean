import RadioRing.Proofs.Reachable

/-!
# Proofs/Network — stations and the frames between them

A `Network` runs several stations over one medium.  Every frame that was ever put on the air can be
heard **at any time, as often as one likes, or never**, which is what losses, duplicates and delays
come to, and a radio may refuse any frame; clocks show what they like.  The network also keeps who
started a turn and who took an offered token, and with which round.
-/

namespace RadioRing

/-! ## A radio for one step -/

/-- What the radio of a station does during one step: it may have a packet, and it may refuse the
frame that it is given. -/
structure Slot where
  reportsSender : Bool
  capacity : Nat := 251
  incoming : Option Packet := none
  refuses : Bool := false
  /-- The frames it took, and where they go. -/
  outgoing : List (Address × Bytes) := []

instance : Radio Slot where
  capacity := Slot.capacity
  reportsSender := Slot.reportsSender
  send r dest frame :=
    if r.refuses then (.error .detached, r)
    else (.ok (), { r with outgoing := r.outgoing ++ [(dest, frame)] })
  receive r _ := (r.incoming, { r with incoming := none })

theorem receive_slot (slot : Slot) (timeout : Duration) :
    Radio.receive slot timeout = (slot.incoming, { slot with incoming := none }) := rfl

theorem send_slot (slot : Slot) (dest : Address) (bytes : Bytes) : Radio.send slot dest bytes =
    if slot.refuses then (.error .detached, slot)
    else (.ok (), { slot with outgoing := slot.outgoing ++ [(dest, bytes)] }) := rfl

/-- The bytes of a message on the air, behind its sender if radios do not report one. -/
def Message.framed (reports : Bool) (sender : Address) (m : Message) : Bytes :=
  if reports then m.encode else sender.byte :: m.encode

namespace Link

variable {l : Link} {reports : Bool} {capacity : Nat} {m : Message}

/-- A message that fits the radio is framed. -/
theorem frame_of_le (h : (m.framed reports l.own).length ≤ capacity) :
    l.frame reports capacity m = .ok (m.framed reports l.own) := if_neg (Nat.not_lt.2 h)

/-- A message that is too long for the radio is refused, with both lengths. -/
theorem frame_of_lt (h : capacity < (m.framed reports l.own).length) :
    l.frame reports capacity m =
      .error (.frameTooLarge (m.framed reports l.own).length capacity) := if_pos h

theorem eq_of_frame {bytes : Bytes} (h : l.frame reports capacity m = .ok bytes) :
    bytes = m.framed reports l.own := by
  rcases Nat.lt_or_ge capacity (m.framed reports l.own).length with hlt | hle
  · exact absurd ((frame_of_lt hlt).symm.trans h) nofun
  · exact (Except.ok.inj ((frame_of_le hle).symm.trans h)).symm

end Link

/-- A frame on the air. -/
structure Transmission where
  sender : Address
  dest : Address
  bytes : Bytes
deriving DecidableEq, Repr

namespace Transmission

/-- The frame that a station puts on the air to send a message. -/
def ofEmission (reports : Bool) (sender : Address) (e : Emission) : Transmission :=
  ⟨sender, e.dest, e.message.framed reports sender⟩

/-- A frame as the radio of a hearer hands it over. -/
def packet (reports : Bool) (e : Transmission) : Packet :=
  ⟨if reports then some e.sender else none, e.dest, e.bytes⟩

/-- **What is heard is what was said**, and nobody hears itself. -/
theorem eq_of_read {l : Link} {reports : Bool} {sender : Address} {e : Emission} {m : Inbound}
    (he : e.message.WellFormed)
    (h : (l.read reports ((ofEmission reports sender e).packet reports)).1 = some m) :
    m = ⟨sender, e.dest, e.message, e.message.encode⟩ ∧ sender ≠ l.own := by
  obtain ⟨hsender, hdest, hpasses⟩ := Link.fst_read_eq_some_iff.1 h
  have hpair : (sender, e.message.encode) = (m.sender, m.raw) := by
    cases reports with
    | false => exact Option.some.inj hsender
    | true => exact Option.some.inj hsender
  obtain ⟨rfl, hraw⟩ := Prod.mk.inj hpair
  have hmessage := hpasses.reads
  rw [← hraw, Message.decode_encode he] at hmessage
  obtain ⟨sender, dest, message, raw⟩ := m
  obtain rfl := Except.ok.inj hmessage
  obtain rfl : raw = e.message.encode := hraw.symm
  obtain rfl : e.dest = dest := hdest
  exact ⟨rfl, hpasses.foreign⟩

end Transmission

namespace Station

variable {α : Type} {s s' : Station α} {slot slot' : Slot} {clock : Readings}

/-- What a station hears during a step is the packet that its radio has. -/
theorem read_of_hear_slot {now : Timestamp} {m : Inbound} (h : (s.hear slot now).1 = some m) :
    ∃ p ∈ slot.incoming, (s.node.link.read slot.reportsSender p).1 = some m := by
  rw [hear_eq] at h
  split at h
  · exact absurd h nofun
  · rw [Link.await, receive_slot] at h
    cases hi : slot.incoming with
    | none => rw [hi] at h; exact absurd h nofun
    | some p => rw [hi] at h; exact ⟨p, rfl, h⟩

/-- A station that listens to its radio hears the packet that the radio has. -/
theorem hear_slot {now : Timestamp} (h : s.node.patience now ≠ none) :
    (s.hear slot now).1 =
      slot.incoming.bind fun p => (s.node.link.read slot.reportsSender p).1 := by
  rw [hear_eq]
  split
  · exact absurd ‹_› h
  · rw [Link.await, receive_slot]
    cases slot.incoming <;> rfl

/-- Hearing takes a packet from the radio at most. -/
theorem slot_of_hear (s : Station α) (slot : Slot) (now : Timestamp) :
    ∃ incoming, (s.hear slot now).2.1 = { slot with incoming } := by
  rw [hear_eq]
  split
  · exact ⟨slot.incoming, rfl⟩
  · rw [Link.await, receive_slot]
    cases slot.incoming <;> exact ⟨none, rfl⟩

/-- A reaction puts at most the frame on the air that it asks to send. -/
theorem outgoing_of_emit (slot : Slot) {l : Link} {emission : Option Emission} {q : Address × Bytes}
    (hidle : slot.outgoing = []) (h : q ∈ (emit l slot emission).2.1.outgoing) :
    ∃ e ∈ emission, q = (e.dest, e.message.framed slot.reportsSender l.own) := by
  cases emission with
  | none =>
    rw [emit, hidle] at h
    exact absurd h List.not_mem_nil
  | some e =>
    rw [emit, Link.send] at h
    split at h
    · rw [hidle] at h
      exact absurd h List.not_mem_nil
    · rename_i bytes hframe
      have hbytes : bytes = e.message.framed slot.reportsSender l.own := Link.eq_of_frame hframe
      rw [send_slot] at h
      split at h
      · rename_i heq
        split at heq
        · obtain ⟨-, rfl⟩ := Prod.mk.inj heq
          rw [hidle] at h
          exact absurd h List.not_mem_nil
        · exact absurd (Prod.mk.inj heq).1 nofun
      · rename_i heq
        split at heq
        · exact absurd (Prod.mk.inj heq).1 nofun
        · obtain ⟨-, rfl⟩ := Prod.mk.inj heq
          have h : q ∈ slot.outgoing ++ [(e.dest, bytes)] := h
          rw [hidle, List.nil_append, List.mem_singleton, hbytes] at h
          exact ⟨e, rfl, h⟩

/-- A radio that takes a frame and can carry it puts it on the air. -/
theorem outgoing_emit (slot : Slot) {l : Link} {e : Emission} (htakes : slot.refuses = false)
    (hfits : (e.message.framed slot.reportsSender l.own).length ≤ slot.capacity) :
    (emit l slot (some e)).2.1.outgoing =
      slot.outgoing ++ [(e.dest, e.message.framed slot.reportsSender l.own)] := by
  have hframe : l.frame (Radio.reportsSender slot) (Radio.capacity slot) e.message =
      .ok (e.message.framed slot.reportsSender l.own) := Link.frame_of_le hfits
  rw [emit, Link.send, hframe]
  dsimp only
  rw [send_slot, htakes]
  rfl

variable [Application α]

/-- **A step with a slot**: what is heard is its packet, and what it then holds was sent. -/
theorem step_slot_eq_ok {events : List Event} (hidle : slot.outgoing = [])
    (h : s.step slot clock = .ok (s', slot', events)) : ∃ r taken,
      s.Steps clock (s.hear slot clock.start).1 r taken s' ∧ ∀ q ∈ slot'.outgoing, ∃ e ∈ r.emission,
        q = (e.dest, e.message.framed slot.reportsSender s.node.own) := by
  obtain ⟨r, hr, rfl⟩ := step_eq_ok h
  obtain ⟨incoming, hslot⟩ := s.slot_of_hear slot clock.start
  refine ⟨r, _, hr, fun q hq => ?_⟩
  rw [hslot] at hq
  exact outgoing_of_emit { slot with incoming } hidle hq

end Station

/-! ## The network -/

/-- Whether the node is about to answer an offer that it has taken. -/
def State.hasTaken : State → Bool
  | accepting .. => true
  | _ => false

/-- Stations and the medium between them. -/
structure Network (α : Type) where
  station : Address → Station α
  /-- Every frame that was ever put on the air. -/
  air : List Transmission := []
  /-- Who started a turn with a token of which round, the first one first. -/
  turns : List (Address × UInt32) := []
  /-- Who took an offered token of which round, the first one first. -/
  taken : List (Address × UInt32) := []

namespace Network

variable {α : Type} [Application α]

/-- One step of the station `x`. -/
def move (w : Network α) (x : Address) (slot : Slot) (clock : Readings) :
    Except Overflow (Network α) :=
  match (w.station x).step slot clock with
  | .error e => .error e
  | .ok (s, slot, _) => .ok {
      station := fun y => if y = x then s else w.station y
      air := w.air ++ slot.outgoing.map fun q => ⟨x, q.1, q.2⟩
      turns :=
        if (w.station x).node.state = .speaking
        then w.turns ++ [(x, (w.station x).node.rounds.held)] else w.turns
      taken := if s.node.state.hasTaken then w.taken ++ [(x, s.node.rounds.held)] else w.taken }

/-- The station `x` of `ring` may make this step: it hears nothing or a frame that was put on the
air, its watchdog does not run out while it listens, and it does not give an offer up. -/
structure Permits (w : Network α) (ring : List Address) (reports : Bool) (x : Address) (slot : Slot)
    (clock : Readings) : Prop where
  member : x ∈ ring
  kind : slot.reportsSender = reports
  idle : slot.outgoing = []
  heard : ∀ p ∈ slot.incoming, ∃ e ∈ w.air, p = e.packet reports
  watchdog : (w.station x).node.state = .listening →
    (w.station x).node.timers.watchdog.elapsed clock.start = false
  patient : ∀ taker, (w.station x).node.state = .awaitingTaker taker →
    (w.station x).node.timers.offerRetry.elapsed clock.start = true →
      (w.station x).node.offerRetries < (w.station x).node.settings.offerRetryLimit.toNat

/-- The networks that permitted steps lead to, in whatever order. -/
inductive Run (ring : List Address) (reports : Bool) : Network α → Network α → Prop
  | refl (w : Network α) : Run ring reports w w
  | step {w w' w'' : Network α} {x : Address} {slot : Slot} {clock : Readings} :
      Run ring reports w w' → w'.Permits ring reports x slot clock →
      w'.move x slot clock = .ok w'' → Run ring reports w w''

/-- The node `x` has its turn, from taking the token until it offers it. -/
def HasTurn (w : Network α) (x : Address) : Prop :=
  (w.station x).node.state.hasTaken = true ∨ (w.station x).node.state.isHolding = true

/-- The node `x` has the token: it has its turn, or it offers a token that nobody has taken. -/
def HasToken (w : Network α) (x : Address) : Prop :=
  w.HasTurn x ∨ ∃ taker session round, (w.station x).node.state = .awaitingTaker taker ∧
    (w.station x).node.offer = some (.turn taker session round) ∧ (taker, round) ∉ w.taken

end Network

end RadioRing
