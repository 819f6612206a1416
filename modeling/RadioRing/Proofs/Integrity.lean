import RadioRing.Medium.Rules
import RadioRing.Proofs.Provenance

/-!
# Proofs/Integrity — payloads and acknowledgements from end to end

Whatever is lost, late, repeated or read twice, and whoever is switched off and on in between:
**a payload is delivered only if its sender has put it on the air, and counted as echoed only if it
was delivered** (`payload_integrity`), and every acknowledgement repeats, byte for byte, a frame of
the node that it is sent to (`acknowledgement_echoes`).
-/

namespace RadioRing

namespace Simulation.Run

variable {φ : Type} [DropFilter φ] {recording : Bool} {s t : Simulation φ} {h early late : History}
  {a b : Address} {x y : Moment Beacon}

/-- **An acknowledgement on the air is one that was owed.** -/
theorem owes_of_sent (hrun : s.Run recording h t) (fresh : s.Fresh)
    (hh : h = early ++ (a, x) :: late) {f : Transmission} {echo : Bytes} (hsent : x.sent a = some f)
    (hack : Message.decode f.bytes = .ok (.ack echo)) : early.Owes a f.dest echo := by
  obtain ⟨-, e, he, rfl⟩ := Moment.sent_eq_some_iff.1 hsent
  exact (hrun.moment_traced fresh hh).owes_of_ack he
    (Message.eq_of_decode_encode hack (Or.inr (Or.inr rfl)))

/-- What a step delivers was said by its sender. -/
theorem spoken_of_delivers (hrun : s.Run recording h t) (fresh : s.Fresh)
    (hh : h = early ++ (b, y) :: late) {sender : Address} {body : Bytes}
    (hy : y.Delivers sender body) : early.Spoken sender body := by
  have ht := hrun.moment_traced fresh hh
  obtain ⟨m, hm, rfl, hbody⟩ := ht.happens.of_delivers hy
  obtain ⟨hsent, hreads⟩ := ht.of_regards hm
  exact hsent.spoken hbody hreads

/-- What is counted as echoed was delivered to another node. -/
theorem delivered_of_countsEcho (hrun : s.Run recording h t) (fresh : s.Fresh)
    (hh : h = early ++ (b, y) :: late) (hy : y.CountsEcho) :
    ∃ c, c ≠ b ∧ early.Delivered c b y.before.node.outgoing := by
  have ht := hrun.moment_traced fresh hh
  obtain ⟨m, echo, hm, message, hdest, hechoes⟩ := ht.happens.of_countsEcho hy
  have hpasses := ht.happens.passes hm
  -- The acknowledgement was sent in an earlier moment, of another node.
  obtain ⟨c, x, hx, hsent⟩ := History.mem_transmissions_iff.1 (ht.heard m hm)
  obtain ⟨first, between, rfl⟩ := List.append_of_mem hx
  rw [List.append_assoc, List.cons_append] at hh
  have howes := hrun.owes_of_sent fresh hh hsent (hpasses.reads.trans (congrArg _ message))
  obtain ⟨-, e, -, hf⟩ := Moment.sent_eq_some_iff.1 hsent
  have hc : c ≠ b := by
    rw [← (Transmission.mk.inj hf).1, ← ht.before.own]
    exact hpasses.foreign
  rw [show m.dest = b from hdest.trans ht.before.own] at howes
  -- What it repeats passes for a frame of the payload, so it is one and was delivered.
  obtain ⟨m', hm', hpayload⟩ := Message.exists_payload_of_echoes hechoes
  cases howes with
  | payload _ reads carries delivered =>
    obtain rfl := Except.ok.inj (hm'.symm.trans reads)
    rw [hpayload.body_eq carries]
    exact ⟨c, hc, delivered.append _⟩
  | offer _ reads =>
    obtain rfl := Except.ok.inj (hm'.symm.trans reads)
    exact absurd hpayload.tag_eq nofun

end Simulation.Run

/-- Nodes 1 and 2 of a simulation that records, both switched off. -/
def pair : Simulation (List DropRule) :=
  let s := Simulation.ofSeed [⟨1⟩, ⟨2⟩] { answerJitter := .zero } 0
  { s with medium := s.medium.record }

/-- Node 1 asks to be admitted until it founds a network, and lets node 2 in, which gets the token,
says a payload and hears the acknowledgement. -/
def script : List Simulation.Action :=
  let asks : List Simulation.Action := [.move ⟨1⟩, .wait (.ofMillis 3000), .move ⟨1⟩]
  .powerOn ⟨1⟩ :: asks ++ asks ++ asks ++ asks ++ .move ⟨1⟩ :: .powerOn ⟨2⟩ ::
    ([2, 1, 1, 2, 2, 1, 1, 2].map fun a => .move ⟨a⟩)

theorem isSome_played? : (pair.play? script).isSome = true := by decide +kernel

/-- What nodes 1 and 2 do then. -/
def played : History × Simulation (List DropRule) := (pair.play? script).get isSome_played?

theorem fresh_pair : pair.Fresh :=
  have fresh : (Simulation.ofSeed [⟨1⟩, ⟨2⟩] { answerJitter := .zero } 0 :
      Simulation (List DropRule)).Fresh := Simulation.fresh_ofSeed _ _ _
  ⟨fresh.off, fresh.silent⟩

/-- **The script of the pair is a run**, with every frame recorded. -/
theorem run_played : pair.Run true played.1 played.2 :=
  Simulation.run_of_play? (p := played) (Option.some_get isSome_played?).symm

theorem length_played : played.1.length = 17 := by decide +kernel

/-- Where node 1 has the payload delivered, and where node 2 counts it as echoed. -/
def deliversAt : Fin played.1.length := ⟨14, by rw [length_played]; decide⟩

def countsAt : Fin played.1.length := ⟨16, by rw [length_played]; decide⟩

/-- What the script leads to: node 1 delivers the payload of node 2, node 2 counts its echo, and the
last frame is the acknowledgement of it by node 1. -/
theorem of_played : (played.1.get deliversAt).2.before.app.delivered = [] ∧
    (played.1.get deliversAt).2.after.app.delivered = [(⟨2⟩, [2, 0, 0])] ∧
    (played.1.get countsAt).1 = ⟨2⟩ ∧
    (played.1.get countsAt).2.before.node.outgoing = [2, 0, 0] ∧
    (played.1.get countsAt).2.before.node.stats.payloadsEchoed = 0 ∧
    (played.1.get countsAt).2.after.node.stats.payloadsEchoed = 1 ∧
    played.2.medium.frames = played.2.medium.frames.take 7 ++
      [⟨.ofMillis 12000, ⟨1⟩, ⟨2⟩, [2, 0, 1, 0, 0, 0, 2, 0, 0]⟩] := by decide +kernel

/-- **Payloads are kept intact from end to end.**  In every run of a simulation that begins with all
nodes switched off, in which nobody but the nodes transmits: a payload of `a` is delivered only if
`a` has put a frame with it on the air before, and a node counts its payload as echoed only if it
was delivered to another node before. -/
theorem payload_integrity {φ : Type} [DropFilter φ] {recording : Bool} {s t : Simulation φ}
    {early late : History} {b : Address} {y : Moment Beacon} (fresh : s.Fresh)
    (run : s.Run recording (early ++ (b, y) :: late) t) :
    (∀ a body, y.Delivers a body → early.Spoken a body) ∧
      (y.CountsEcho → ∃ c, c ≠ b ∧ early.Delivered c b y.before.node.outgoing) :=
  ⟨fun _ _ => run.spoken_of_delivers fresh rfl, run.delivered_of_countsEcho fresh rfl⟩

/-- In the script of the pair, node 1 is given the very payload that node 2 has put on the air
before, and node 2 counts it as echoed only after that. -/
theorem payload_integrity_of_two : pair.Fresh ∧ pair.Run true played.1 played.2 ∧
    (played.1.get deliversAt).2.Delivers ⟨2⟩ [2, 0, 0] ∧
    History.Spoken (played.1.take deliversAt) ⟨2⟩ [2, 0, 0] ∧
    (played.1.get countsAt).2.CountsEcho ∧
    ∃ c, c ≠ ⟨2⟩ ∧ History.Delivered (played.1.take countsAt) c ⟨2⟩ [2, 0, 0] := by
  obtain ⟨hbefore, hafter, hnode, hbody, hold, hnew, -⟩ := of_played
  have hdelivers : (played.1.get deliversAt).2.Delivers ⟨2⟩ [2, 0, 0] :=
    ⟨[(⟨2⟩, [2, 0, 0])], by rw [hafter, hbefore]; rfl, List.mem_singleton_self _⟩
  have hcounts : (played.1.get countsAt).2.CountsEcho := by
    rw [Moment.CountsEcho, hold, hnew]
    decide
  have hspoken := (payload_integrity fresh_pair (run_played.split deliversAt)).1 _ _ hdelivers
  have hheard := (payload_integrity fresh_pair (run_played.split countsAt)).2 hcounts
  rw [hnode, hbody] at hheard
  exact ⟨fresh_pair, run_played, hdelivers, hspoken, hcounts, hheard⟩

/-- **Acknowledgements repeat what the one that they are sent to has said.**  In every run of a
simulation that begins with all nodes switched off and records from the start, in which nobody but
the nodes transmits: an acknowledgement carries, byte for byte, a frame that its destination has
transmitted before, which is a payload or offers the token to the node that acknowledges it. -/
theorem acknowledgement_echoes {φ : Type} [DropFilter φ] {s t : Simulation φ} {h : History}
    {early late : List Envelope} {e : Envelope} {echo : Bytes} (fresh : s.Fresh)
    (records : s.medium.recorded = some []) (run : s.Run true h t)
    (frames : t.medium.frames = early ++ e :: late)
    (ack : Message.decode e.bytes = .ok (.ack echo)) :
    ∃ f ∈ early, f.sender = e.dest ∧ f.bytes = echo ∧ ∃ m, Message.decode f.bytes = .ok m ∧
      (m.tag = .data ∨ m.tag = .retry ∨ ∃ session round, m = .turn e.sender session round) := by
  have hsaid := run.frames_eq records
  rw [frames, List.map_append, List.map_cons] at hsaid
  obtain ⟨before, a, x, after, hh, hsent, hbefore⟩ := History.exists_of_transmissions_eq hsaid.symm
  obtain ⟨-, e', -, he⟩ := Moment.sent_eq_some_iff.1 hsent
  obtain rfl : e.sender = a := (Transmission.mk.inj he).1
  -- A frame that was sent before stands in the record before the acknowledgement.
  have recorded {dest : Address} (hf : ⟨e.dest, dest, echo⟩ ∈ before.transmissions) :
      ∃ f ∈ early, f.sender = e.dest ∧ f.bytes = echo := by
    rw [hbefore] at hf
    obtain ⟨f, hf, heq⟩ := List.mem_map.1 hf
    obtain ⟨hfrom, -, hbytes⟩ := Transmission.mk.inj heq
    exact ⟨f, hf, hfrom, hbytes⟩
  cases run.owes_of_sent fresh hh hsent ack with
  | payload sent reads carries =>
    obtain ⟨f, hf, hfrom, rfl⟩ := recorded sent
    exact ⟨f, hf, hfrom, rfl, _, reads, carries.tag_eq.imp id Or.inl⟩
  | offer sent reads =>
    obtain ⟨f, hf, hfrom, rfl⟩ := recorded sent
    exact ⟨f, hf, hfrom, rfl, _, reads, Or.inr (Or.inr ⟨_, _, rfl⟩)⟩

/-- In the script of the pair, the last frame is an acknowledgement by node 1, and what it echoes is
a frame of node 2 recorded before it. -/
theorem acknowledgement_echoes_of_two : pair.Fresh ∧ pair.medium.recorded = some [] ∧
    pair.Run true played.1 played.2 ∧ ∃ early e, played.2.medium.frames = early ++ [e] ∧
      Message.decode e.bytes = .ok (.ack [0, 1, 0, 0, 0, 2, 0, 0]) ∧
      ∃ f ∈ early, f.sender = e.dest ∧ f.bytes = [0, 1, 0, 0, 0, 2, 0, 0] := by
  obtain ⟨-, -, -, -, -, -, hframes⟩ := of_played
  obtain ⟨f, hf, hsender, hbytes, -⟩ :=
    acknowledgement_echoes fresh_pair rfl run_played hframes rfl
  exact ⟨fresh_pair, rfl, run_played, _, _, hframes, rfl, f, hf, hsender, hbytes⟩

end RadioRing
