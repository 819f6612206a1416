import RadioRing.Address
/-!
# AddressMap — a finite map whose keys are kept in ascending order

An `AddressMap` is a list of entries with **strictly ascending addresses**, so two maps with the
same entries are the same map, and walking one visits its addresses in ring order.
-/

namespace RadioRing

/-- A finite map from addresses. -/
@[ext]
structure AddressMap (β : Type) where
  /-- The entries, ascending by address. -/
  entries : List (Address × β)
  /-- No address comes twice, and none before a lower one. -/
  ascending : entries.Pairwise fun x y => x.1 < y.1

namespace AddressMap

variable {β γ : Type}

/-- The map without entries. -/
def empty : AddressMap β := ⟨[], List.Pairwise.nil⟩

instance : Inhabited (AddressMap β) := ⟨empty⟩

instance [DecidableEq β] : DecidableEq (AddressMap β) := fun m n =>
  decidable_of_iff (m.entries = n.entries) ⟨AddressMap.ext, congrArg entries⟩

/-- The addresses that have an entry, ascending. -/
def keys (m : AddressMap β) : List Address := m.entries.map Prod.fst

/-- The value at `a`. -/
def get? (m : AddressMap β) (a : Address) : Option β :=
  (m.entries.find? fun e => e.1 = a).map Prod.snd

/-- Whether `a` has an entry. -/
def contains (m : AddressMap β) (a : Address) : Bool := m.entries.any fun e => e.1 = a

/-- Entries with one more, at its place in the order; an entry of the same address gives way. -/
def insertEntry (a : Address) (b : β) : List (Address × β) → List (Address × β)
  | [] => [(a, b)]
  | e :: rest =>
    if a < e.1 then (a, b) :: e :: rest
    else if a = e.1 then (a, b) :: rest
    else e :: insertEntry a b rest

theorem mem_insertEntry {a : Address} {b : β} {es : List (Address × β)} {x : Address × β}
    (h : x ∈ insertEntry a b es) : x = (a, b) ∨ x ∈ es := by
  induction es with
  | nil => simpa [insertEntry] using h
  | cons e rest ih =>
    unfold insertEntry at h
    split at h
    · simpa using h
    · split at h
      · rcases List.mem_cons.1 h with h | h
        · exact Or.inl h
        · exact Or.inr (List.mem_cons_of_mem _ h)
      · rcases List.mem_cons.1 h with h | h
        · exact Or.inr (by simp [h])
        · exact (ih h).imp id (List.mem_cons_of_mem _)

theorem pairwise_insertEntry (a : Address) (b : β) {es : List (Address × β)}
    (h : es.Pairwise fun x y => x.1 < y.1) :
    (insertEntry a b es).Pairwise fun x y => x.1 < y.1 := by
  induction es with
  | nil => simp [insertEntry]
  | cons e rest ih =>
    rw [List.pairwise_cons] at h
    unfold insertEntry
    split
    · rename_i hlt
      refine List.pairwise_cons.2 ⟨?_, List.pairwise_cons.2 h⟩
      intro x hx
      rcases List.mem_cons.1 hx with rfl | hx
      · exact hlt
      · have := h.1 x hx
        simp only [Address.lt_iff] at this hlt ⊢
        omega
    · split
      · rename_i heq
        refine List.pairwise_cons.2 ⟨?_, h.2⟩
        intro x hx
        have := h.1 x hx
        simpa [heq] using this
      · rename_i hlt hne
        refine List.pairwise_cons.2 ⟨?_, ih h.2⟩
        intro x hx
        rcases mem_insertEntry hx with rfl | hx
        · have hne' : a.toNat ≠ e.1.toNat := fun h => hne (Address.ext_toNat h)
          simp only [Address.lt_iff] at hlt ⊢
          omega
        · exact h.1 x hx

/-- The map with `b` at `a`. -/
def insert (m : AddressMap β) (a : Address) (b : β) : AddressMap β :=
  ⟨insertEntry a b m.entries, pairwise_insertEntry a b m.ascending⟩

/-- The map without an entry at `a`. -/
def erase (m : AddressMap β) (a : Address) : AddressMap β :=
  ⟨m.entries.filter fun e => e.1 ≠ a, m.ascending.sublist List.filter_sublist⟩

/-- The map that `f` makes of every entry, at the same addresses. -/
def map (m : AddressMap β) (f : Address → β → γ) : AddressMap γ :=
  ⟨m.entries.map fun e => (e.1, f e.1 e.2), List.pairwise_map.2 m.ascending⟩

/-- The map that has `b` at each of the given addresses. -/
def ofKeys (addresses : List Address) (b : β) : AddressMap β :=
  addresses.foldl (fun m a => m.insert a b) empty

@[simp] theorem entries_erase (m : AddressMap β) (a : Address) :
    (m.erase a).entries = m.entries.filter fun e => e.1 ≠ a := rfl

@[simp] theorem keys_map (m : AddressMap β) (f : Address → β → γ) : (m.map f).keys = m.keys := by
  simp [keys, map, Function.comp_def]

theorem contains_iff_mem_keys {m : AddressMap β} {a : Address} :
    m.contains a = true ↔ a ∈ m.keys := by
  simp only [contains, keys, List.any_eq_true, List.mem_map, decide_eq_true_eq]

end AddressMap

end RadioRing
