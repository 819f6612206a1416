import RadioRing.Medium.Basic
import RadioRing.Proofs.Network

/-!
# Proofs/Inboxes — what waits in an inbox, and what is recorded

Whatever the medium does with the copies of a frame, **an inbox gets nothing but copies of what is
transmitted** (`waits_of_transmit`), and the record gets one entry for each frame that is taken.  So
a station hears through its antenna what waited in its inbox, and adds to the medium at most the
frame that it sends.
-/

namespace RadioRing

namespace AddressMap

variable {β : Type} {m : AddressMap β} {a x : Address} {b : β}

theorem get?_empty : (empty : AddressMap β).get? a = none := rfl

/-- **A map has at an address what was put there last.** -/
theorem get?_insert (m : AddressMap β) (a x : Address) (b : β) :
    (m.insert a b).get? x = if x = a then some b else m.get? x := by
  suffices h : ∀ entries : List (Address × β),
      ((insertEntry a b entries).find? fun e => e.1 = x).map Prod.snd =
        if x = a then some b else (entries.find? fun e => e.1 = x).map Prod.snd from h m.entries
  intro entries
  induction entries with
  | nil => by_cases hx : x = a <;> simp [insertEntry, hx, eq_comm]
  | cons e rest ih =>
    unfold insertEntry
    split
    · by_cases hx : x = a <;> simp [List.find?_cons, hx, eq_comm]
    · split
      · by_cases hx : x = a
        · simp [hx]
        · have he : ¬e.1 = x := fun he => hx (he.symm.trans ‹a = e.1›.symm)
          have ha : ¬a = x := fun ha => hx ha.symm
          simp [hx, he, ha]
      · by_cases he : e.1 = x
        · have hx : ¬x = a := fun hx => ‹¬a = e.1› (he.trans hx).symm
          simp [he, hx]
        · simp [he, ih]

theorem get?_erase (m : AddressMap β) (a x : Address) :
    (m.erase a).get? x = if x = a then none else m.get? x := by
  unfold get?
  rw [entries_erase, List.find?_filter]
  by_cases hx : x = a
  · simp [hx]
  · rw [if_neg hx]
    refine congrArg (Option.map Prod.snd) (congrArg (List.find? · m.entries) (funext fun e => ?_))
    by_cases he : e.1 = x <;> simp [he, hx]

end AddressMap

namespace Medium

variable {φ : Type} {m : Medium φ} {a b : Address} {p : Packet}

/-- The packet is in the inbox of `a`. -/
def Waits (m : Medium φ) (a : Address) (p : Packet) : Prop :=
  ∃ packets, m.inboxes.get? a = some packets ∧ p ∈ packets

theorem waits_of_mem_getD (h : p ∈ (m.inboxes.get? a).getD []) : m.Waits a p := by
  cases hget : m.inboxes.get? a with
  | none =>
    rw [hget] at h
    exact absurd h List.not_mem_nil
  | some packets => exact ⟨packets, hget, by rwa [hget] at h⟩

/-- An inbox that is put in place of another one has what it is given. -/
theorem waits_insert {packets : List Packet}
    (h : ({ m with inboxes := m.inboxes.insert b packets } : Medium φ).Waits a p) :
    m.Waits a p ∨ a = b ∧ p ∈ packets := by
  obtain ⟨waiting, hget, hp⟩ := h
  rw [AddressMap.get?_insert] at hget
  split at hget
  · obtain rfl := Option.some.inj hget
    exact Or.inr ⟨‹_›, hp⟩
  · exact Or.inl ⟨waiting, hget, hp⟩

/-- The medium is changed without a frame on the air: nothing waits that did not wait before. -/
def Adjusts (m m' : Medium φ) : Prop := ∀ a p, m'.Waits a p → m.Waits a p

theorem adjusts_advance (m : Medium φ) (d : Duration) : m.Adjusts (m.advance d) := fun _ _ => id

/-- Whoever is attached starts with an empty inbox. -/
theorem adjusts_attach (m : Medium φ) (b : Address) : m.Adjusts (m.attach b) := fun _ _ h =>
  (waits_insert h).resolve_right fun hp => List.not_mem_nil hp.2

/-- Whoever is detached loses what was waiting. -/
theorem adjusts_detach (m : Medium φ) (b : Address) : m.Adjusts (m.detach b) := by
  intro a p ⟨packets, hget, hp⟩
  change (m.inboxes.erase b).get? a = _ at hget
  rw [AddressMap.get?_erase] at hget
  split at hget
  · exact absurd hget nofun
  · exact ⟨packets, hget, hp⟩

/-- Whoever drains its inbox has nothing waiting any more. -/
theorem adjusts_drain (m : Medium φ) (b : Address) : m.Adjusts (m.drain b).2 := by
  unfold drain
  split
  · exact fun _ _ h => (waits_insert h).resolve_right fun hp => List.not_mem_nil hp.2
  · exact fun _ _ => id

/-- **What is received was waiting**, and the rest waits on. -/
theorem waits_of_receive (m : Medium φ) (b : Address) : (∀ p ∈ (m.receive b).1, m.Waits b p) ∧
    m.Adjusts (m.receive b).2 ∧ (m.receive b).2.recorded = m.recorded := by
  unfold receive
  split
  · rename_i first rest hget
    refine ⟨fun p hp => ⟨_, hget, ?_⟩, fun a p h => ?_, rfl⟩
    · exact Option.some.inj hp ▸ List.mem_cons_self
    · rcases waits_insert h with h | ⟨rfl, hp⟩
      · exact h
      · exact ⟨_, hget, List.mem_cons_of_mem _ hp⟩
  · exact ⟨nofun, fun _ _ h => h, rfl⟩

/-- All that can be done to a medium but to transmit. -/
inductive Controls (m : Medium φ) : Medium φ → Prop
  | advance (d : Duration) : Controls m (m.advance d)
  | setLoss (loss : Loss) : Controls m (m.setLoss loss)
  | setFilter (filter : φ) : Controls m (m.setFilter filter)
  | record : Controls m m.record
  | attach (b : Address) : Controls m (m.attach b)
  | detach (b : Address) : Controls m (m.detach b)
  | receive (b : Address) : Controls m (m.receive b).2
  | drain (b : Address) : Controls m (m.drain b).2

/-- **Nothing but a transmission puts anything into an inbox.** -/
theorem Controls.adjusts {m m' : Medium φ} (h : m.Controls m') : m.Adjusts m' := by
  cases h with
  | advance d => exact m.adjusts_advance d
  | setLoss | setFilter | record => exact fun _ _ => id
  | attach b => exact m.adjusts_attach b
  | detach b => exact m.adjusts_detach b
  | receive b => exact (m.waits_of_receive b).2.1
  | drain b => exact m.adjusts_drain b

variable [DropFilter φ]

/-- **An inbox gets nothing but copies** of the frame that is spread. -/
theorem waits_of_spread {loss : Loss} {e : Envelope} {receivers : List Address} :
    ∀ {m : Medium φ}, (spread loss e receivers m).recorded = m.recorded ∧
      ∀ {a p}, (spread loss e receivers m).Waits a p → m.Waits a p ∨ p = e.copy := by
  induction receivers with
  | nil => exact fun {_} => ⟨rfl, Or.inl⟩
  | cons receiver rest ih =>
    intro m
    rcases hk : keeps loss e receiver m.filter m.random with ⟨kept, filter, random⟩
    unfold spread
    rw [hk]
    refine ⟨ih.1, fun {a p} h => (ih.2 h).elim (fun h => ?_) Or.inr⟩
    cases kept with
    | false => exact Or.inl h
    | true =>
      rcases waits_insert (m := m) h with h | ⟨rfl, hp⟩
      · exact Or.inl h
      · rcases List.mem_append.1 hp with hp | hp
        · exact Or.inl (waits_of_mem_getD hp)
        · exact Or.inr (List.mem_singleton.1 hp)

/-- A frame that is taken is recorded, and its copies are all that is new in the inboxes. -/
theorem transmit_eq (m : Medium φ) (sender dest : Address) (bytes : Bytes) :
    (∃ m', m.transmit sender dest bytes = (.ok (), m') ∧
      m'.recorded = m.recorded.map (⟨m.now, sender, dest, bytes⟩ :: ·) ∧
      ∀ a p, m'.Waits a p → m.Waits a p ∨ p = ⟨some sender, dest, bytes⟩) ∨
    ∃ e, m.transmit sender dest bytes = (.error e, m) := by
  unfold transmit
  split
  · refine Or.inl ⟨_, rfl, ?_, fun a p h => ?_⟩
    · dsimp only
      rw [waits_of_spread.1]
    · exact waits_of_spread.2 h
  · exact Or.inr ⟨_, rfl⟩

end Medium

namespace Antenna

variable {φ : Type} [DropFilter φ]

theorem receive_eq (m : Medium φ) (a : Address) (timeout : Duration) :
    Radio.receive (mk m a) timeout = ((m.receive a).1, ⟨(m.receive a).2, a⟩) := rfl

theorem send_eq (m : Medium φ) (a dest : Address) (bytes : Bytes) :
    Radio.send (mk m a) dest bytes =
      ((m.transmit a dest bytes).1, ⟨(m.transmit a dest bytes).2, a⟩) := rfl

end Antenna

namespace Station

variable {φ α : Type} [DropFilter φ] {m : Medium φ} {a : Address}

/-- **What a station hears through its antenna has waited in its inbox.** -/
theorem hear_antenna (s : Station α) (m : Medium φ) (a : Address) (now : Timestamp) :
    (∀ x ∈ (s.hear (Antenna.mk m a) now).1, ∃ p, m.Waits a p ∧
      (s.node.link.read true p).1 = some x) ∧
    ∃ m', (s.hear (Antenna.mk m a) now).2.1 = ⟨m', a⟩ ∧ m'.recorded = m.recorded ∧
      ∀ b p, m'.Waits b p → m.Waits b p := by
  obtain ⟨hfirst, hrest, hrecorded⟩ := m.waits_of_receive a
  rw [hear_eq]
  split
  · exact ⟨nofun, m, rfl, rfl, fun _ _ => id⟩
  · rw [Link.await, Antenna.receive_eq]
    cases hp : (m.receive a).1 with
    | none => exact ⟨fun x hx => absurd hx (Option.not_mem_none x), _, rfl, hrecorded, hrest⟩
    | some p => exact ⟨fun x hx => ⟨p, hfirst p hp, hx⟩, _, rfl, hrecorded, hrest⟩

/-- **A frame that the radio takes is transmitted**, and any other one changes nothing. -/
theorem emit_antenna (l : Link) (m : Medium φ) (a : Address) (emission : Option Emission) :
    (∃ e m', emission = some e ∧ (emit l (Antenna.mk m a) emission).1 = true ∧
      (emit l (Antenna.mk m a) emission).2.1 = ⟨m', a⟩ ∧
      m'.recorded = m.recorded.map (⟨m.now, a, e.dest, e.message.encode⟩ :: ·) ∧
      ∀ b p, m'.Waits b p → m.Waits b p ∨ p = ⟨some a, e.dest, e.message.encode⟩) ∨
    (emit l (Antenna.mk m a) emission).1 = false ∧
      (emit l (Antenna.mk m a) emission).2.1 = ⟨m, a⟩ := by
  cases emission with
  | none => exact Or.inr ⟨rfl, rfl⟩
  | some e =>
    have hemit : emit l (Antenna.mk m a) (some e) = l.send (Antenna.mk m a) e.dest e.message := rfl
    rw [hemit, Link.send]
    split
    · exact Or.inr ⟨rfl, rfl⟩
    · rename_i bytes hframe
      obtain rfl : bytes = e.message.encode := Link.eq_of_frame hframe
      rcases m.transmit_eq a e.dest e.message.encode with ⟨m', ht, hrecorded, hwaits⟩ | ⟨error, ht⟩
      · rw [Antenna.send_eq, ht]
        exact Or.inl ⟨e, m', rfl, rfl, rfl, hrecorded, hwaits⟩
      · rw [Antenna.send_eq, ht]
        exact Or.inr ⟨rfl, rfl⟩

end Station

end RadioRing
