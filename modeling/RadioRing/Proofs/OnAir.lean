import RadioRing.Proofs.Authority
import RadioRing.Proofs.Network
import Mathlib.Data.List.Perm.Subperm

/-!
# Proofs/OnAir — what a node puts on the air

Whatever a node says can be said and is **read back from its frame** (`air_well_formed`), since each
message is made of what the node vouches for: an offer goes to a node of the roster, and an answer
lists those who take turns, the node itself and the newcomer (`Node.Lists`), who need not be in the
roster but is a single node, having been named in a frame that was read.

An acknowledgement repeats the frame that it is about behind a tag of its own.  So **a frame that
fills the radio is accepted and can never be acknowledged** (`acknowledgement_fits_iff`).
-/

namespace RadioRing

variable {α : Type}

/-- The bytes of the message in a frame, without a sender in front. -/
def Message.unframed (reports : Bool) (frame : Bytes) : Bytes :=
  if reports then frame else frame.drop 1

@[simp] theorem Message.unframed_framed (reports : Bool) (sender : Address) (m : Message) :
    unframed reports (m.framed reports sender) = m.encode := by
  cases reports <;> rfl

/-- What the list of members in an answer to `joiner` has to be. -/
structure Node.Lists (n : Node) (joiner : Address) (members : List Address) : Prop where
  ascending : members.Pairwise (· < ·)
  mem : ∀ a, a ∈ members ↔ n.table.isEligible a = true ∨ a = n.own ∨ a = joiner
  single : ∀ a ∈ members, a ≠ .everyone
  /-- The roster and one newcomer. -/
  length : members.length ≤ 17

namespace Node

variable {n : Node}

/-- **What a node answers to a newcomer**, whoever that is. -/
theorem Sound.lists_eligibleWith (h : n.Sound) {joiner : Address} (hj : joiner ≠ .everyone) :
    n.Lists joiner (n.table.eligibleWith [n.own, joiner]) := by
  have hmem (a : Address) : a ∈ n.table.eligibleWith [n.own, joiner] ↔
      n.table.isEligible a = true ∨ a = n.own ∨ a = joiner := by
    simp [Membership.mem_eligibleWith]
  have hfrom : n.table.eligibleWith [n.own, joiner] ⊆ joiner :: n.settings.roster := by
    intro a ha
    rcases (hmem a).1 ha with ha | rfl | rfl
    · exact List.mem_cons_of_mem _ (h.roster a (Membership.contains_of_isEligible ha))
    · exact List.mem_cons_of_mem _ (Settings.roster_of_check h.accepted).2
    · exact List.mem_cons_self
  have hascending : (n.table.eligibleWith [n.own, joiner]).Pairwise (· < ·) :=
    AddressMap.pairwise_keys _
  have hnodup : (n.table.eligibleWith [n.own, joiner]).Nodup :=
    hascending.imp Address.ne_of_lt
  refine ⟨hascending, hmem, fun a ha => ?_, ?_⟩
  · rcases List.mem_cons.1 (hfrom ha) with rfl | ha
    · exact hj
    · exact Settings.ne_everyone_of_check h.accepted ha
  · refine Nat.le_trans (hnodup.subperm hfrom).length_le ?_
    rw [List.length_cons]
    exact Nat.succ_le_succ (Settings.parts_of_check h.accepted).1

/-- An answer to a request fits in a frame. -/
theorem Sound.wellFormed_answerFor (h : n.Sound) {session : Session} {joiner : Address}
    (member : n.session = some session) (hj : joiner ≠ .everyone) :
    (n.answerFor session joiner).WellFormed := by
  have hlists := h.lists_eligibleWith hj
  refine ⟨⟨hj, hlists.single⟩, h.network session member, fun hm => ?_⟩
  obtain ⟨-, -, -, -, rfl⟩ := Message.joinAck.inj hm
  exact Nat.le_trans hlists.length (by decide)

end Node

variable [Application α]

/-- **Whom a node is about to answer is a single node**: it has been named in a frame. -/
theorem Station.Reachable.ne_everyone_of_admitting {s : Station α} (h : s.Reachable) :
    ∀ joiner, s.node.state = .admitting joiner → joiner ≠ .everyone := by
  refine h.invariant (P := fun s => ∀ joiner, s.node.state = .admitting joiner →
    joiner ≠ .everyone) (fun s hs joiner hj => ?_) fun x hx hreach ih joiner hj => ?_
  · obtain ⟨settings, random, -, hn⟩ := hs.node_eq
    rw [hn] at hj
    exact absurd hj nofun
  · rcases hx.acts.of_next_admitting (hx.state_after ▸ hj) with hstate | ⟨m, hm, message⟩
    · exact ih joiner hstate
    · have hpasses := hx.passes_of_regards hreach.passes_deferred hm
      have hnames := (Message.wellFormed_of_decode hpasses.reads).nodes
      rw [message] at hnames
      exact hnames

namespace Moment

variable {x : Moment α} {m : Message}

/-- **What a node says fits in a frame and is about its own network.** -/
theorem Happens.of_says (hs : x.before.Reachable) (hx : x.Happens) (hm : x.Says m) :
    m.WellFormed ∧
    (∀ target session round, m = .turn target session round →
      x.before.node.session = some session) ∧
    ∀ joiner session round handsOver members,
      m = .joinAck joiner session round handsOver members →
        x.before.node.session = some session ∧ x.before.node.Lists joiner members := by
  have hsound := Station.sound_of_reachable hs
  obtain ⟨e, he, rfl⟩ := hm
  rcases hx.acts.of_emission he with ⟨-, -, -, body, data⟩ | ⟨-, -, -, body, retry⟩ |
    ⟨taker, hnext, hoffer, hsession, -⟩ | ⟨echo, ack⟩ | request |
    ⟨joiner, session, hstate, member, answer⟩
  · rw [data]
    exact ⟨Message.wellFormed_data _ _, nofun, nofun⟩
  · rw [retry]
    exact ⟨Message.wellFormed_retry _ _, nofun, nofun⟩
  · -- The offer that waits afterwards is what the state asks for.
    have hfits := hsound.offerFits hx.acts
    rw [hnext] at hfits
    obtain ⟨-, known, session, hsession', hoffer'⟩ := hfits
    have hmessage := Option.some.inj (hoffer.symm.trans hoffer')
    have member : x.before.node.session = some session := hsession.symm.trans hsession'
    rw [hx.acts.settings_eq] at known
    rw [hmessage]
    refine ⟨Message.wellFormed_turn (Settings.ne_everyone_of_check hsound.accepted known)
      (hsound.network session member), fun target session' round hm => ?_, nofun⟩
    exact (Message.turn.inj hm).2.1 ▸ member
  · rw [ack]
    exact ⟨Message.wellFormed_ack _, nofun, nofun⟩
  · rw [request]
    exact ⟨⟨Settings.ne_everyone_of_check hsound.accepted hs.own_mem, trivial, nofun⟩, nofun, nofun⟩
  · have single := hs.ne_everyone_of_admitting joiner hstate
    rw [answer]
    refine ⟨hsound.wellFormed_answerFor member single, nofun, ?_⟩
    intro joiner' session' round handsOver members hm
    obtain ⟨rfl, rfl, -, -, rfl⟩ := Message.joinAck.inj hm
    exact ⟨member, hsound.lists_eligibleWith single⟩

end Moment

/-- **Everything on the air is well formed.**  Whatever a node says, in any state that it can come
into and over any radio, its frame without the sender in front is read as what it said.  An offer of
the token and an answer to a request carry the session of the node and name single nodes only, and
an answer lists those who take turns, the node and the newcomer, in ascending order and no more than
17 of them. -/
theorem air_well_formed {x : Moment α} {m : Message} (hs : x.before.Reachable) (hx : x.Happens)
    (hm : x.Says m) :
    (∀ reports capacity frame, x.before.node.link.frame reports capacity m = .ok frame →
      Message.decode (Message.unframed reports frame) = .ok m) ∧
    (∀ target session round, m = .turn target session round →
      x.before.node.session = some session ∧ target ≠ .everyone) ∧
    ∀ joiner session round handsOver members,
      m = .joinAck joiner session round handsOver members →
        x.before.node.session = some session ∧ joiner ≠ .everyone ∧
          x.before.node.Lists joiner members := by
  obtain ⟨fits, hturn, hjoinAck⟩ := hx.of_says hs hm
  refine ⟨fun reports capacity frame hframe => ?_, fun target session round h => ?_,
    fun joiner session round handsOver members h => ?_⟩
  · rw [Link.eq_of_frame hframe, Message.unframed_framed]
    exact Message.decode_encode fits
  · have hnames := fits.nodes
    rw [h] at hnames
    exact ⟨hturn target session round h, hnames⟩
  · have hnames := fits.nodes
    rw [h] at hnames
    obtain ⟨member, hlists⟩ := hjoinAck joiner session round handsOver members h
    exact ⟨member, hnames.1, hlists⟩

/-! ## Node 1 lets a stranger in -/

/-- Node 1 of the ring 1, 2, 3, which node 3 has let in, answers a request that names node 9. -/
def stranger? : Option (Moment Beacon) :=
  (Station.played? ⟨1⟩ [(.zero, []),
    (.zero, [⟨some ⟨3⟩, ⟨1⟩, (Message.joinAck ⟨1⟩ ⟨7⟩ 5 false [⟨1⟩, ⟨3⟩]).encode⟩]),
    (.zero, [⟨some ⟨2⟩, .everyone, (Message.joinRequest ⟨9⟩).encode⟩]), (.zero, [])]).bind
      fun p => p.2.1[3]?

theorem isSome_stranger? : stranger?.isSome = true := by decide

def stranger : Moment Beacon := stranger?.get isSome_stranger?

theorem happens_stranger : stranger.before.Reachable ∧ stranger.Happens :=
  Station.happens_of_played? (Option.some_get isSome_stranger?).symm

/-- The answer lists node 9, which is not in the roster, and is read back from its frame. -/
theorem air_well_formed_of_stranger :
    stranger.Says (.joinAck ⟨9⟩ ⟨7⟩ 5 false [⟨1⟩, ⟨3⟩, ⟨9⟩]) ∧
    Message.decode (Message.unframed false [1, 5, 9, 7, 0, 0, 0, 5, 0, 0, 0, 0, 3, 1, 3, 9]) =
      .ok (.joinAck ⟨9⟩ ⟨7⟩ 5 false [⟨1⟩, ⟨3⟩, ⟨9⟩]) ∧
    stranger.before.node.session = some ⟨7⟩ ∧
    stranger.before.node.Lists ⟨9⟩ [⟨1⟩, ⟨3⟩, ⟨9⟩] := by
  have hsaid : stranger.Says (.joinAck ⟨9⟩ ⟨7⟩ 5 false [⟨1⟩, ⟨3⟩, ⟨9⟩]) := by
    unfold Moment.Says
    decide
  obtain ⟨hreads, -, hlists⟩ := air_well_formed happens_stranger.1 happens_stranger.2 hsaid
  obtain ⟨hsession, -, hlists⟩ := hlists _ _ _ _ _ rfl
  exact ⟨hsaid, hreads false 251 _ (by decide), hsession, hlists⟩

/-! ## What can be acknowledged -/

/-- A frame is as long as its message, and one byte longer with a sender in front. -/
theorem Message.length_framed (reports : Bool) (sender : Address) (m : Message) :
    (m.framed reports sender).length = m.encode.length + if reports then 0 else 1 := by
  cases reports <;> rfl

/-- An acknowledgement is a byte longer than what it repeats. -/
theorem Message.length_framed_ack (reports : Bool) (sender receiver : Address) (m : Message) :
    ((ack m.encode).framed reports receiver).length = (m.framed reports sender).length + 1 := by
  have hack : (ack m.encode).encode.length = m.encode.length + 1 := rfl
  rw [length_framed, length_framed, hack, Nat.add_right_comm]

namespace Link

/-- What comes without a sender in front is what was said, whatever it is. -/
theorem raw_eq_of_read {sender receiver : Link} {reports : Bool} {m : Message} {dest : Address}
    {i : Inbound} (h : (receiver.read reports
      (Transmission.packet reports ⟨sender.own, dest, m.framed reports sender.own⟩)).1 = some i) :
    i.raw = m.encode := by
  obtain ⟨hsender, -, -⟩ := fst_read_eq_some_iff.1 h
  cases reports with
  | false => exact (Prod.mk.inj (Option.some.inj hsender)).2.symm
  | true => exact (Prod.mk.inj (Option.some.inj hsender)).2.symm

end Link

/-- **A message can be acknowledged unless it fills the radio.**  When a frame that one radio has
accepted is read over another one like it, the acknowledgement fits exactly if the frame was shorter
than the longest one; for a frame of that length the radio refuses the acknowledgement, which is one
byte too long. -/
theorem acknowledgement_fits_iff {sender receiver : Link} {reports : Bool} {capacity : Nat}
    {m : Message} {dest : Address} {frame : Bytes} {i : Inbound}
    (accepted : sender.frame reports capacity m = .ok frame)
    (reads : (receiver.read reports
      (Transmission.packet reports ⟨sender.own, dest, frame⟩)).1 = some i) :
    ((∃ answer, receiver.frame reports capacity (.ack i.raw) = .ok answer) ↔
      frame.length < capacity) ∧
    (frame.length = capacity → receiver.frame reports capacity (.ack i.raw) =
      .error (.frameTooLarge (capacity + 1) capacity)) := by
  obtain rfl := Link.eq_of_frame accepted
  have hlength := Message.length_framed_ack reports sender.own receiver.own m
  rw [Link.raw_eq_of_read reads]
  rcases Nat.lt_or_ge (m.framed reports sender.own).length capacity with hlt | hge
  · have hfits : ((Message.ack m.encode).framed reports receiver.own).length ≤ capacity := by
      rw [hlength]
      exact hlt
    exact ⟨iff_of_true ⟨_, Link.frame_of_le hfits⟩ hlt,
      fun hfull => absurd hfull (Nat.ne_of_lt hlt)⟩
  · have hlong : capacity < ((Message.ack m.encode).framed reports receiver.own).length := by
      rw [hlength]
      exact Nat.lt_succ_of_le hge
    rw [Link.frame_of_lt hlong, hlength]
    exact ⟨iff_of_false nofun (Nat.not_lt.2 hge), fun hfull => by rw [hfull]⟩

/-- Node `own` of the ring 1, 2, as far as its radio is concerned. -/
def linkOfTwo (own : Address) : Link := ⟨own, [⟨1⟩, ⟨2⟩], .ofMillis 1000⟩

/-- A payload of so many bytes. -/
def zeros (count : Nat) : Message := .data 2 (.replicate count 0)

theorem length_encode_zeros (count : Nat) : (zeros count).encode.length = count + 5 := by
  simp [zeros, Message.encode, Message.fields, wordBytes]

/-- A radio for 251 bytes accepts a payload of 246. -/
theorem frame_zeros {count : Nat} (h : count ≤ 246) :
    (linkOfTwo ⟨1⟩).frame true 251 (zeros count) = .ok (zeros count).encode := by
  refine Link.frame_of_le ?_
  rw [Message.framed, if_pos rfl, length_encode_zeros]
  omega

/-- Node 2 hears it from node 1. -/
theorem read_zeros (count : Nat) : ((linkOfTwo ⟨2⟩).read true
    (Transmission.packet true ⟨(linkOfTwo ⟨1⟩).own, .everyone, (zeros count).encode⟩)).1 =
      some ⟨⟨1⟩, .everyone, zeros count, (zeros count).encode⟩ := by
  have hforeign : (⟨1⟩ : Address) ≠ ⟨2⟩ := by decide
  exact Link.fst_read_eq_some_iff.2 ⟨rfl, rfl, hforeign, List.mem_cons_self, Or.inr rfl,
    Message.decode_encode (Message.wellFormed_data _ _)⟩

/-- Over that radio the acknowledgement of 245 bytes fits, and that of 246 does not. -/
theorem acknowledgement_fits_of_two :
    (∃ answer, (linkOfTwo ⟨2⟩).frame true 251 (.ack (zeros 245).encode) = .ok answer) ∧
    (linkOfTwo ⟨2⟩).frame true 251 (.ack (zeros 246).encode) =
      .error (.frameTooLarge 252 251) := by
  obtain ⟨hfits, -⟩ := acknowledgement_fits_iff (frame_zeros (by decide : 245 ≤ 246))
    (read_zeros 245)
  obtain ⟨-, hfull⟩ := acknowledgement_fits_iff (frame_zeros (Nat.le_refl 246)) (read_zeros 246)
  refine ⟨hfits.2 ?_, hfull (length_encode_zeros 246)⟩
  rw [length_encode_zeros]
  decide

/-- **Not every payload that a radio accepts can be acknowledged.** -/
theorem not_acknowledgement_fits : ¬∀ (sender receiver : Link) (reports : Bool) (capacity : Nat)
    (m : Message) (dest : Address) (frame : Bytes) (i : Inbound),
    (m.tag = .data ∨ m.tag = .retry) → sender.frame reports capacity m = .ok frame →
      (receiver.read reports (Transmission.packet reports ⟨sender.own, dest, frame⟩)).1 = some i →
        ∃ answer, receiver.frame reports capacity (.ack i.raw) = .ok answer := by
  intro hall
  obtain ⟨answer, h⟩ := hall _ _ _ _ _ _ _ _ (Or.inl rfl) (frame_zeros (Nat.le_refl 246))
    (read_zeros 246)
  have hlong : ((Message.ack (zeros 246).encode).framed true (linkOfTwo ⟨2⟩).own).length = 252 :=
    congrArg (· + 1) (length_encode_zeros 246)
  exact absurd ((Link.frame_of_lt (hlong ▸ Nat.lt_succ_self 251)).symm.trans h) nofun

end RadioRing
