import RadioRing.Proofs.Calls
import RadioRing.Proofs.Noise
import RadioRing.Proofs.OnAir

/-!
# Proofs/Framing — what one node frames another one reads

A radio tells who sent a packet, or leaves that to the first byte (`Packet.SentBy`).  A frame starts
with its sender exactly where the radio does not tell, so **what a node frames is read as the message
that it framed, and as its own** (`Packet.sentBy_framed`), also where a radio says more than it
promises.  And a link lets nothing through but what passes its filter, one packet at a time
(`link_reads_what_is_framed`).
-/

namespace RadioRing

/-- Who sent a packet, and what it holds besides its sender. -/
inductive Packet.SentBy (reports : Bool) (p : Packet) (sender : Address) (raw : Bytes) : Prop
  /-- The radio tells. -/
  | reported (tells : reports = true) (told : p.sender? = some sender) (holds : p.bytes = raw)
  /-- The first byte tells. -/
  | leading (untold : reports = false ∨ p.sender? = none) (holds : p.bytes = sender.byte :: raw)

/-- The sender of a frame that a node made is the node, whatever a radio adds that promises
nothing. -/
theorem Packet.sentBy_framed {reports : Bool} {p : Packet} {sender : Address} {m : Message}
    (holds : p.bytes = m.framed reports sender)
    (told : reports = true → p.sender? = some sender) : p.SentBy reports sender m.encode := by
  cases reports with
  | true => exact .reported rfl (told rfl) holds
  | false => exact .leading (Or.inl rfl) holds

namespace Link

theorem senderOf_eq_some_iff {reports : Bool} {p : Packet} {sender : Address} {raw : Bytes} :
    senderOf reports p = some (sender, raw) ↔ p.SentBy reports sender raw := by
  obtain ⟨sender?, dest, bytes⟩ := p
  constructor
  · intro h
    unfold senderOf at h
    split at h
    · rename_i told raw' htold
      obtain ⟨rfl, rfl⟩ := Prod.mk.inj (Option.some.inj h)
      obtain ⟨tells, told⟩ := Option.ite_none_right_eq_some.1 htold
      exact .reported tells told rfl
    · rename_i first rest huntold hbytes
      obtain ⟨rfl, rfl⟩ := Prod.mk.inj (Option.some.inj h)
      refine .leading ?_ hbytes
      cases reports with
      | true => exact Or.inr huntold
      | false => exact Or.inl rfl
    · exact absurd h nofun
  · rintro (⟨rfl, told, rfl⟩ | ⟨untold, holds⟩)
    · dsimp only at told
      rw [told]
      rfl
    · have hnone : (if reports = true then sender? else none) = none := by
        rcases untold with rfl | untold
        · rfl
        · rw [show sender? = none from untold, ite_self]
      dsimp only at holds
      simp only [senderOf, hnone, holds]

variable {ρ : Type} [Radio ρ] {l : Link} {radio radio' : ρ} {timeout : Duration} {p : Packet}

/-- **One packet is received, and nothing else is asked of the radio.** -/
theorem await_calls (received : Radio.receive radio timeout = (some p, radio'))
    (calls : List Call) : (l.await radio timeout).2.1 = radio' ∧
      (l.await (⟨radio, calls⟩ : Watched ρ) timeout).2.1 =
        ⟨radio', calls ++ [.received timeout]⟩ := by
  have hawait := l.await_of_receive (congrArg Prod.fst received)
  rw [received] at hawait
  rw [await_watched, hawait]
  exact ⟨rfl, rfl⟩

/-- **What becomes of a packet**: it is a message for the node, or it is dropped. -/
theorem await_eq_some_iff (received : Radio.receive radio timeout = (some p, radio'))
    {i : Inbound} : (l.await radio timeout).1 = some i ↔
      p.SentBy (Radio.reportsSender radio') i.sender i.raw ∧ p.dest = i.dest ∧ l.Passes i := by
  have hawait := l.await_of_receive (congrArg Prod.fst received)
  rw [received] at hawait
  rw [hawait, fst_read_eq_some_iff, senderOf_eq_some_iff]

end Link

/-- **What a node frames another one reads, and a link reads nothing but what is for its node.**

A message that is read back from its own encoding is framed by node `a`.  A packet that holds the
frame reaches node `b`, which knows `a`, over a radio that reports senders if the radio of `a` does,
and then says that it is from `a`; it is for `b` or for all.  Then `b` hears from `a` that message,
with the bytes of its encoding.

And of whatever packet a link receives, it receives that one only, and lets it through exactly if its
sender is somebody else of the roster, it is for the node or for all, and its bytes without a sender
in front are read. -/
theorem link_reads_what_is_framed {ρ ρ' : Type} [Radio ρ] [Radio ρ'] :
    (∀ (a b : Link) (antenna : ρ) (radio radio' : ρ') (timeout : Duration) (p : Packet)
      (m : Message), Message.decode m.encode = .ok m → a.own ≠ b.own → a.own ∈ b.roster →
      a.frame (Radio.reportsSender antenna) (Radio.capacity antenna) m = .ok p.bytes →
      Radio.receive radio timeout = (some p, radio') →
      Radio.reportsSender radio' = Radio.reportsSender antenna →
      (Radio.reportsSender antenna = true → p.sender? = some a.own) →
      (p.dest = b.own ∨ p.dest.isEveryone = true) →
      (b.await radio timeout).1 = some ⟨a.own, p.dest, m, m.encode⟩) ∧
    ∀ (l : Link) (radio radio' : ρ') (timeout : Duration) (p : Packet),
      Radio.receive radio timeout = (some p, radio') →
      (∀ calls, (l.await radio timeout).2.1 = radio' ∧
        (l.await (⟨radio, calls⟩ : Watched ρ') timeout).2.1 =
          ⟨radio', calls ++ [.received timeout]⟩) ∧
      ((l.await radio timeout).1.isSome = true ↔ ∃ sender raw,
        p.SentBy (Radio.reportsSender radio') sender raw ∧ sender ≠ l.own ∧ sender ∈ l.roster ∧
        (p.dest = l.own ∨ p.dest.isEveryone = true) ∧ ∃ m, Message.decode raw = .ok m) ∧
      ∀ i, (l.await radio timeout).1 = some i →
        p.SentBy (Radio.reportsSender radio') i.sender i.raw ∧ i.dest = p.dest ∧
          Message.decode i.raw = .ok i.message := by
  constructor
  · intro a b antenna radio radio' timeout p m reads distinct known framed received agree told meant
    have holds := Link.eq_of_frame framed
    rw [Link.await_eq_some_iff received, agree]
    exact ⟨Packet.sentBy_framed holds told, rfl, distinct, known, meant, reads⟩
  · intro l radio radio' timeout p received
    refine ⟨Link.await_calls received, ?_, fun i hi => ?_⟩
    · rw [Option.isSome_iff_exists]
      constructor
      · rintro ⟨i, hi⟩
        obtain ⟨sent, hdest, foreign, known, meant, reads⟩ := (Link.await_eq_some_iff received).1 hi
        exact ⟨i.sender, i.raw, sent, foreign, known, hdest ▸ meant, i.message, reads⟩
      · rintro ⟨sender, raw, sent, foreign, known, meant, m, reads⟩
        exact ⟨⟨sender, p.dest, m, raw⟩,
          (Link.await_eq_some_iff received).2 ⟨sent, rfl, foreign, known, meant, reads⟩⟩
    · obtain ⟨sent, hdest, passes⟩ := (Link.await_eq_some_iff received).1 hi
      exact ⟨sent, hdest.symm, passes.reads⟩

/-! ## A radio that does not report senders -/

/-- Node 1 lets node 2 into its network. -/
def welcome : Message := .joinAck ⟨2⟩ ⟨7⟩ 5 true [⟨1⟩, ⟨2⟩]

/-- The frame of that, for node 2.  The radio that hears it promises no sender and names node 9. -/
def welcomePacket : Packet := ⟨some ⟨9⟩, ⟨2⟩, welcome.framed false ⟨1⟩⟩

/-- The frame without its first byte: what is left would come from node 5. -/
def headlessPacket : Packet := ⟨some ⟨1⟩, ⟨2⟩, welcome.encode⟩

def deafRadio : ScriptedRadio :=
  { reportsSender := false, inbox := [welcomePacket, headlessPacket] }

/-- **Node 2 hears the welcome from node 1**, and then drops what seems to come from node 5. -/
theorem link_reads_what_is_framed_of_welcome :
    ((linkOfTwo ⟨2⟩).await deafRadio .zero).1 = some ⟨⟨1⟩, ⟨2⟩, welcome, welcome.encode⟩ ∧
    ¬((linkOfTwo ⟨2⟩).await ({ deafRadio with inbox := [headlessPacket] }) .zero).1.isSome ∧
    ((linkOfTwo ⟨2⟩).await (⟨deafRadio, []⟩ : Watched ScriptedRadio) .zero).2.1.calls =
      [.received .zero] := by
  obtain ⟨reads, drops⟩ := @link_reads_what_is_framed ScriptedRadio ScriptedRadio _ _
  obtain ⟨asks, -⟩ := drops (linkOfTwo ⟨2⟩) deafRadio _ .zero welcomePacket rfl
  obtain ⟨-, hears, -⟩ :=
    drops (linkOfTwo ⟨2⟩) { deafRadio with inbox := [headlessPacket] } _ .zero headlessPacket rfl
  refine ⟨reads (linkOfTwo ⟨1⟩) _ deafRadio deafRadio _ .zero welcomePacket welcome
    (by decide) (by decide) (by decide) (by decide) rfl rfl nofun (Or.inl rfl), ?_, ?_⟩
  · rw [hears]
    rintro ⟨sender, raw, sent, foreign, known, -⟩
    have hsender := Link.senderOf_eq_some_iff.2 sent
    obtain ⟨rfl, -⟩ := Prod.mk.inj (Option.some.inj hsender)
    exact absurd known (by decide)
  · rw [(asks []).2]
    rfl

end RadioRing
