import RadioRing.Proofs.History
import RadioRing.Proofs.Payloads

/-!
# Proofs/Provenance — where all that is heard and acknowledged comes from

In a run in which only the nodes put frames on the air, whatever waits in an inbox was sent
(`Simulation.Traced`), and **every station keeps only what has a history** (`Station.Traced`): the
message that it has put aside was sent, the payload that it took last was delivered to it, and the
frame that it is about to acknowledge is one that it owes an answer to (`History.Owes`).  One step
of a node keeps that (`Moment.Traced.after`), and so does every run (`Simulation.Run.traced`).
-/

namespace RadioRing

namespace History

variable {h : History} {a sender : Address} {echo body : Bytes} {m : Inbound}

/-- The message was sent as it was heard. -/
def Sent (h : History) (m : Inbound) : Prop := ⟨m.sender, m.dest, m.raw⟩ ∈ h.transmissions

/-- The node `a` has put a frame with the payload `body` on the air. -/
def Spoken (h : History) (a : Address) (body : Bytes) : Prop :=
  ∃ x, (a, x) ∈ h ∧ x.taken = true ∧ ∃ m, x.Says m ∧ m.IsPayload body

/-- The node `a` has had the payload `body` of `sender` delivered. -/
def Delivered (h : History) (a sender : Address) (body : Bytes) : Prop :=
  ∃ x, (a, x) ∈ h ∧ x.Delivers sender body

/-- The node `a` owes `sender` an acknowledgement of `echo`: it is the frame of a payload that was
delivered to `a`, or it offers the token to `a`. -/
inductive Owes (h : History) (a sender : Address) (echo : Bytes) : Prop
  | payload {dest : Address} {m : Message} {body : Bytes}
      (sent : ⟨sender, dest, echo⟩ ∈ h.transmissions)
      (reads : Message.decode echo = .ok m) (carries : m.IsPayload body)
      (delivered : h.Delivered a sender body)
  | offer {dest : Address} {session : Session} {round : UInt32}
      (sent : ⟨sender, dest, echo⟩ ∈ h.transmissions)
      (reads : Message.decode echo = .ok (.turn a session round))

theorem mem_transmissions_append {f : Transmission} (hf : f ∈ h.transmissions) (late : History) :
    f ∈ transmissions (h ++ late) := by
  rw [transmissions_append]
  exact List.mem_append_left _ hf

theorem Sent.append (hm : h.Sent m) (late : History) : Sent (h ++ late) m :=
  mem_transmissions_append hm late

theorem Delivered.append (hd : h.Delivered a sender body) (late : History) :
    Delivered (h ++ late) a sender body := by
  obtain ⟨x, hx, hd⟩ := hd
  exact ⟨x, List.mem_append_left _ hx, hd⟩

theorem Owes.append (ho : h.Owes a sender echo) (late : History) :
    Owes (h ++ late) a sender echo := by
  cases ho with
  | payload sent reads carries delivered =>
    exact .payload (mem_transmissions_append sent late) reads carries (delivered.append late)
  | offer sent reads => exact .offer (mem_transmissions_append sent late) reads

/-- **A payload that was heard was said by its sender.** -/
theorem Sent.spoken (hm : h.Sent m) (hbody : m.message.IsPayload body)
    (hreads : Message.decode m.raw = .ok m.message) : h.Spoken m.sender body := by
  obtain ⟨a, x, hx, hsent⟩ := mem_transmissions_iff.1 hm
  obtain ⟨htaken, e, he, hf⟩ := Moment.sent_eq_some_iff.1 hsent
  obtain ⟨rfl, -, hraw⟩ := Transmission.mk.inj hf
  have hmessage : e.message = m.message :=
    Message.eq_of_decode_encode (hraw ▸ hreads) (hbody.tag_eq.imp id Or.inl)
  exact ⟨x, hx, htaken, e.message, ⟨e, he, rfl⟩, hmessage ▸ hbody⟩

end History

/-! ## What a station keeps -/

/-- What the station of `a` keeps goes back to what was sent and delivered. -/
structure Station.Traced (h : History) (a : Address) (s : Station Beacon) : Prop where
  own : s.node.own = a
  reachable : s.Reachable
  /-- What was put aside was sent. -/
  aside : ∀ m ∈ s.node.deferred, h.Sent m
  /-- The payload that was taken last was delivered. -/
  last : ∀ sender body, s.node.lastDelivered = some (sender, body) → h.Delivered a sender body
  /-- What it is about to acknowledge is owed. -/
  acknowledges : ∀ holder echo, s.node.state = .acknowledging holder echo → h.Owes a holder echo
  accepts : ∀ giver echo, s.node.state = .accepting giver echo → h.Owes a giver echo

namespace Station.Traced

variable {h : History} {a : Address} {s : Station Beacon}

theorem of_booted (hs : s.Booted) (hown : s.node.own = a) : s.Traced h a := by
  obtain ⟨settings, random, -, hn⟩ := hs.node_eq
  refine ⟨hown, hs.reachable, ?_, ?_, ?_, ?_⟩ <;> rw [hn] <;> exact nofun

theorem append (hs : s.Traced h a) (late : History) : s.Traced (h ++ late) a where
  own := hs.own
  reachable := hs.reachable
  aside m hm := (hs.aside m hm).append late
  last sender body hl := (hs.last sender body hl).append late
  acknowledges holder echo hst := (hs.acknowledges holder echo hst).append late
  accepts giver echo hst := (hs.accepts giver echo hst).append late

end Station.Traced

/-- The step is made by the traced station of `a`, which hears what was sent. -/
structure Moment.Traced (h : History) (a : Address) (x : Moment Beacon) : Prop where
  happens : x.Happens
  before : x.before.Traced h a
  heard : ∀ m ∈ x.heard, h.Sent m

namespace Moment.Traced

variable {h : History} {a : Address} {x : Moment Beacon} {m : Inbound}

/-- **Every message that a step looks at was sent**, and read from the bytes that were heard. -/
theorem of_regards (hx : x.Traced h a) (hm : x.Regards m) :
    h.Sent m ∧ Message.decode m.raw = .ok m.message := by
  refine ⟨?_, (hx.happens.passes_of_regards hx.before.reachable.passes_deferred hm).reads⟩
  by_cases state : x.before.node.state = .listening
  · rw [Regards, Node.regards_of_listening state, Option.or_eq_some_iff] at hm
    exact hm.elim (hx.before.aside m) fun hm => hx.heard m hm.2
  · rw [Regards, Node.regards_of_ne_listening state] at hm
    exact hx.heard m hm

/-- A payload that a step looks at leaves an acknowledgement owed, since it is delivered: now, or
when the same payload was taken before. -/
theorem owes_of_payload (hx : x.Traced h a) {body : Bytes} (hm : x.Regards m)
    (hbody : m.message.IsPayload body)
    (hdelivers : x.Delivers m.sender body ∨ x.before.node.lastDelivered = some (m.sender, body)) :
    History.Delivered (h ++ [(a, x)]) a m.sender body ∧
      History.Owes (h ++ [(a, x)]) a m.sender m.raw := by
  obtain ⟨hsent, hreads⟩ := hx.of_regards hm
  have hdelivered : History.Delivered (h ++ [(a, x)]) a m.sender body :=
    hdelivers.elim (fun hd => ⟨x, List.mem_append_right _ List.mem_cons_self, hd⟩)
      fun hl => (hx.before.last _ _ hl).append _
  exact ⟨hdelivered, .payload (hsent.append _) hreads hbody hdelivered⟩

/-- **A step keeps a history of all that its station keeps.** -/
theorem after (hx : x.Traced h a) : x.after.Traced (h ++ [(a, x)]) a := by
  have hpayload : (∀ sender body, x.after.node.lastDelivered = some (sender, body) →
      History.Delivered (h ++ [(a, x)]) a sender body) ∧
      ∀ holder echo, x.after.node.state = .acknowledging holder echo →
        History.Owes (h ++ [(a, x)]) a holder echo := by
    rcases hx.happens.of_payload with
      ⟨-, hlast, hstate⟩ | ⟨m, body, hm, hbody, hstate, hlast, hheard⟩
    · rw [hlast]
      exact ⟨fun sender body hl => (hx.before.last _ _ hl).append _,
        fun holder echo hst => (hx.before.acknowledges _ _ (hstate _ _ hst)).append _⟩
    · obtain ⟨hdelivered, howes⟩ := hx.owes_of_payload hm hbody
        (hheard.imp delivers_of_heard And.left)
      rw [hlast, hstate]
      refine ⟨fun sender body hl => ?_, fun holder echo hst => ?_⟩
      · obtain ⟨rfl, rfl⟩ := Prod.mk.inj (Option.some.inj hl)
        exact hdelivered
      · obtain ⟨rfl, rfl⟩ := State.acknowledging.inj hst
        exact howes
  refine ⟨hx.happens.own_after.trans hx.before.own, hx.before.reachable.moment hx.happens,
    fun m hm => ?_, hpayload.1, hpayload.2, fun giver echo hst => ?_⟩
  · have hm := hx.happens.acts.of_deferred (hx.happens.deferred_after ▸ hm)
    exact (hm.elim (hx.before.aside m) (hx.heard m)).append _
  · obtain ⟨-, m, session, round, takes, rfl, rfl, message, -⟩ := hx.happens.of_accepting hst
    obtain ⟨hsent, hreads⟩ := hx.of_regards takes.1
    rw [message, hx.before.own] at hreads
    exact .offer (hsent.append _) hreads

/-- **A station acknowledges only what it owes an answer to.** -/
theorem owes_of_ack (hx : x.Traced h a) {e : Emission} {echo : Bytes}
    (he : x.reaction.emission = some e) (hack : e.message = .ack echo) : h.Owes a e.dest echo := by
  rcases hx.happens.acts.of_ack he hack hx.before.reachable.turn_of_offer with
    hst | hst | ⟨m, session, round, hm, message, hsender, rfl⟩
  · exact hx.before.acknowledges _ _ hst
  · exact hx.before.accepts _ _ hst
  · obtain ⟨hsent, hreads⟩ := hx.of_regards hm
    rw [History.Sent, hsender] at hsent
    rw [message, hx.before.own] at hreads
    exact .offer hsent hreads

end Moment.Traced

/-! ## What a run leaves behind -/

/-- All that waits and all that the stations keep goes back to what was sent and delivered. -/
structure Simulation.Traced {φ : Type} (h : History) (s : Simulation φ) : Prop where
  waits : ∀ a p, s.medium.Waits a p → ∃ f ∈ h.transmissions, p = f.packet true
  stations : ∀ a station, s.stations.get? a = some station → station.Traced h a

namespace Simulation

variable {φ : Type} {s t t' : Simulation φ} {h early late : History} {a : Address}
  {x : Moment Beacon}

theorem Fresh.traced (hs : s.Fresh) : s.Traced [] where
  waits a p hp := absurd hp (hs.silent a p)
  stations a station hget := by
    rw [hs.off, AddressMap.get?_empty] at hget
    exact absurd hget nofun

variable [DropFilter φ]

/-- The step of a traced simulation is traced. -/
theorem Moves.moment_traced (hx : s.Moves a x t) (hs : s.Traced h) : x.Traced h a := by
  obtain ⟨antenna, hhappens, -⟩ := hx.happens
  refine ⟨hhappens.happens, hs.stations a x.before hx.powered, fun m hm => ?_⟩
  obtain ⟨p, hp, hread⟩ := hhappens.changes.heard m hm
  obtain ⟨⟨sender, dest, bytes⟩, hf, rfl⟩ := hs.waits a p hp
  obtain ⟨hpair, hdest, -⟩ := Link.fst_read_eq_some_iff.1 hread
  obtain ⟨rfl, rfl⟩ : sender = m.sender ∧ bytes = m.raw := Prod.mk.inj (Option.some.inj hpair)
  obtain rfl : dest = m.dest := hdest
  exact hf

/-- **A step of a node keeps everything traced.** -/
theorem Moves.traced (hx : s.Moves a x t) (hs : s.Traced h) : t.Traced (h ++ [(a, x)]) := by
  have hafter := (hx.moment_traced hs).after
  obtain ⟨antenna, hhappens, rfl⟩ := hx.happens
  refine ⟨fun b p hp => ?_, fun b station hget => ?_⟩
  · rw [History.transmissions_concat]
    rcases hhappens.changes.waits b p hp with hp | ⟨f, hf, rfl⟩
    · obtain ⟨f, hf, rfl⟩ := hs.waits b p hp
      exact ⟨f, List.mem_append_left _ hf, rfl⟩
    · exact ⟨f, List.mem_append_right _ (Option.mem_toList.2 hf), rfl⟩
  · rw [AddressMap.get?_insert] at hget
    split at hget
    · obtain rfl := Option.some.inj hget
      subst b
      exact hafter
    · exact (hs.stations b station hget).append _

/-- **In every run all is traced.** -/
theorem Run.traced {recording : Bool} (hrun : s.Run recording h t) (fresh : s.Fresh) :
    t.Traced h := by
  -- Only a move puts anything into an inbox, and what it puts there it adds to the history.
  induction hrun with
  | refl => exact fresh.traced
  | powerOn _ hon ih =>
    rcases powerOn_eq_ok hon with ⟨hstations, hmedium⟩ | ⟨station, hboot, hown, hstations, hmedium⟩
    · exact ⟨hmedium ▸ ih.waits, hstations ▸ ih.stations⟩
    · refine ⟨fun b p hp => ?_, fun b station' hget => ?_⟩
      · rw [hmedium] at hp
        exact ih.waits b p (Medium.adjusts_attach _ _ b p hp)
      · rw [hstations, AddressMap.get?_insert] at hget
        split at hget
        · obtain rfl := Option.some.inj hget
          exact .of_booted hboot (hown.trans ‹b = _›.symm)
        · exact ih.stations b station' hget
  | powerOff a _ ih =>
    refine ⟨fun b p hp => ih.waits b p (Medium.adjusts_detach _ a b p hp), fun b station hget => ?_⟩
    change (AddressMap.erase _ _).get? b = _ at hget
    rw [AddressMap.get?_erase] at hget
    split at hget
    · exact absurd hget nofun
    · exact ih.stations b station hget
  | move _ hx ih => exact hx.traced ih
  | adjust _ _ hadjusts _ ih =>
    exact ⟨fun b p hp => ih.waits b p (hadjusts b p hp), ih.stations⟩

/-- **Every moment of a run is traced to the moments before it.** -/
theorem Run.moment_traced {recording : Bool} (hrun : s.Run recording h t) (fresh : s.Fresh)
    (hh : h = early ++ (a, x) :: late) : x.Traced early a := by
  obtain ⟨u, u', hearly, hx⟩ := hrun.of_middle hh
  exact hx.moment_traced (hearly.traced fresh)

end Simulation

end RadioRing
