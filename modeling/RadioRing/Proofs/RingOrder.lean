import RadioRing.Membership

/-!
# Proofs/RingOrder — the order in which a ring is walked

`Address.gap a b` is how far one has to go up from `a`, wrapping, to reach `b`, and
`Membership.following a` lists everybody but `a` who takes turns, **nearest first**
(`pairwise_gap_following`).  So `successor` is the nearest of them (`successor_eq_some_iff`), and
the walk goes on unchanged when whoever is left behind loses its place (`following_mark`).
-/

namespace RadioRing

namespace Address

theorem toNat_lt (a : Address) : a.toNat < 256 := a.byte.toNat_lt

theorem lt_irrefl (a : Address) : ¬a < a := fun h => Nat.lt_irrefl _ (lt_iff.1 h)

theorem ne_of_lt {a b : Address} (h : a < b) : a ≠ b := by
  rintro rfl
  exact lt_irrefl _ h

theorem toNat_ne {a b : Address} (h : a ≠ b) : a.toNat ≠ b.toNat := fun e => h (ext_toNat e)

/-- How far `b` is from `a` going up around the ring of all addresses. -/
def gap (a b : Address) : Nat := (b.toNat + 256 - a.toNat) % 256

/-- From one address, no two addresses are equally far. -/
theorem gap_inj {a b c : Address} (h : a.gap b = a.gap c) : b = c := by
  have ha := a.toNat_lt
  have hb := b.toNat_lt
  have hc := c.toNat_lt
  refine ext_toNat ?_
  unfold gap at h
  omega

/-- What lies behind `b` on the way up from `a` is in the same order seen from `b`. -/
theorem gap_lt_gap {a b x y : Address} (hx : a.gap b < a.gap x) (hxy : a.gap x < a.gap y) :
    b.gap x < b.gap y := by
  have ha := a.toNat_lt
  have hb := b.toNat_lt
  simp only [gap] at *
  omega

/-- Seen from `b`, it lies before `a`. -/
theorem gap_lt_gap_start {a b x : Address} (hba : b ≠ a) (hx : a.gap b < a.gap x) :
    b.gap x < b.gap a := by
  have hne := toNat_ne hba
  have ha := a.toNat_lt
  have hb := b.toNat_lt
  have hlt := x.toNat_lt
  simp only [gap] at *
  omega

/-- **An ascending list is known by what is in it.** -/
theorem eq_of_pairwise_lt {xs ys : List Address} (hx : xs.Pairwise (· < ·))
    (hy : ys.Pairwise (· < ·)) (h : ∀ a, a ∈ xs ↔ a ∈ ys) : xs = ys := by
  refine List.Perm.eq_of_pairwise (fun a b _ _ hab hba => ?_) hx hy
    ((List.perm_ext_iff_of_nodup (hx.imp ne_of_lt) (hy.imp ne_of_lt)).2 h)
  exact absurd (lt_iff.1 hab) (Nat.lt_asymm (lt_iff.1 hba))

end Address

namespace AddressMap

variable {β : Type}

/-- In a map, an address has the value of its entry. -/
theorem get?_eq_some_iff {m : AddressMap β} {a : Address} {b : β} :
    m.get? a = some b ↔ (a, b) ∈ m.entries := by
  obtain ⟨entries, ascending⟩ := m
  simp only [get?]
  induction entries with
  | nil => simp
  | cons e rest ih =>
    obtain ⟨hlt, hrest⟩ := List.pairwise_cons.1 ascending
    by_cases he : e.1 = a
    · -- No later entry can have the address of this one.
      have hnot : (a, b) ∉ rest := fun h => Address.lt_irrefl a (by simpa [he] using hlt _ h)
      subst he
      simp [hnot, Prod.ext_iff, eq_comm]
    · have hne : (a, b) ≠ e := fun h => he (by rw [← h])
      simp [he, hne, ih hrest]

/-- An address stands in a map exactly if it has a value there. -/
theorem contains_iff {m : AddressMap β} {a : Address} :
    m.contains a = true ↔ ∃ b, m.get? a = some b := by
  simp only [get?_eq_some_iff, contains, List.any_eq_true, decide_eq_true_eq]
  constructor
  · rintro ⟨e, he, rfl⟩
    exact ⟨e.2, he⟩
  · rintro ⟨b, hb⟩
    exact ⟨_, hb, rfl⟩

theorem mem_map_fst_insertEntry {a x : Address} {b : β} {es : List (Address × β)} :
    x ∈ (insertEntry a b es).map Prod.fst ↔ x = a ∨ x ∈ es.map Prod.fst := by
  induction es with
  | nil => simp [insertEntry]
  | cons e rest ih =>
    unfold insertEntry
    split
    · simp
    · split
      · rename_i hae
        simp [← hae]
      · rw [List.map_cons, List.mem_cons, ih, List.map_cons, List.mem_cons, or_left_comm]

/-- An entry that is inserted adds its address and removes none. -/
theorem contains_insert (m : AddressMap β) {a x : Address} {b : β} :
    (m.insert a b).contains x = true ↔ x = a ∨ m.contains x = true := by
  rw [contains_iff_mem_keys, contains_iff_mem_keys]
  exact mem_map_fst_insertEntry

/-- A map that is made for some addresses has an entry for each of them and for nobody else. -/
theorem contains_ofKeys {addresses : List Address} {b : β} {x : Address} :
    (ofKeys addresses b).contains x = true ↔ x ∈ addresses := by
  suffices hfold : ∀ m : AddressMap β,
      (addresses.foldl (fun m a => m.insert a b) m).contains x = true ↔
        x ∈ addresses ∨ m.contains x = true by
    exact (hfold empty).trans ⟨fun h => h.elim id nofun, Or.inl⟩
  induction addresses with
  | nil => simp
  | cons a rest ih =>
    intro m
    rw [List.foldl_cons, ih, contains_insert, List.mem_cons, or_left_comm, or_assoc]

/-- **The addresses of a map ascend.** -/
theorem pairwise_keys (m : AddressMap β) : m.keys.Pairwise (· < ·) :=
  List.pairwise_map.2 m.ascending

/-- **The addresses of a map are known by which they are**, since they are kept in order. -/
theorem keys_eq_of_contains {γ : Type} {m : AddressMap β} {m' : AddressMap γ}
    (h : ∀ a, m.contains a = true ↔ m'.contains a = true) : m.keys = m'.keys := by
  refine Address.eq_of_pairwise_lt m.pairwise_keys m'.pairwise_keys fun a => ?_
  rw [← contains_iff_mem_keys, ← contains_iff_mem_keys]
  exact h a

/-- All entries of such a map have the same value. -/
theorem snd_eq_of_mem_ofKeys {addresses : List Address} {b : β} {e : Address × β}
    (h : e ∈ (ofKeys addresses b).entries) : e.2 = b := by
  suffices hfold : ∀ m : AddressMap β, (∀ e ∈ m.entries, e.2 = b) →
      ∀ e ∈ (addresses.foldl (fun m a => m.insert a b) m).entries, e.2 = b from
    hfold empty nofun e h
  clear h
  induction addresses with
  | nil => exact fun _ hm => hm
  | cons a rest ih =>
    refine fun m hm => ih _ fun e he => ?_
    rcases mem_insertEntry he with rfl | he
    · rfl
    · exact hm e he

end AddressMap

namespace Membership

variable {m : Membership} {a b : Address}

/-! ## Who takes turns -/

/-- Eligible is whoever has an entry with its flag up. -/
theorem isEligible_iff : m.isEligible b = true ↔ (b, true) ∈ m.entries := by
  rw [← AddressMap.get?_eq_some_iff, isEligible]
  cases m.get? b <;> simp

/-- The eligible list names whoever is eligible, and nobody else. -/
theorem mem_eligible : b ∈ m.eligible ↔ m.isEligible b = true := by
  rw [isEligible_iff]
  simp only [eligible, List.mem_filterMap, Option.ite_none_right_eq_some, Option.some.injEq]
  constructor
  · rintro ⟨e, he, ht, rfl⟩
    exact ht ▸ he
  · exact fun h => ⟨_, h, rfl, rfl⟩

/-- **The eligible addresses are listed in ascending order.** -/
theorem pairwise_eligible (m : Membership) : m.eligible.Pairwise (· < ·) := by
  refine List.Pairwise.filterMap _ (fun x y hxy u hu v hv => ?_) m.ascending
  simp only [Option.ite_none_right_eq_some, Option.some.injEq] at hu hv
  obtain ⟨-, rfl⟩ := hu
  obtain ⟨-, rfl⟩ := hv
  exact hxy

/-- Who takes turns is all that the order of the turns depends on. -/
theorem eligible_congr {m' : Membership}
    (h : ∀ a, m.isEligible a = true ↔ m'.isEligible a = true) : m.eligible = m'.eligible :=
  Address.eq_of_pairwise_lt m.pairwise_eligible m'.pairwise_eligible fun a =>
    mem_eligible.trans ((h a).trans mem_eligible.symm)

/-- Only an address of the table is eligible. -/
theorem contains_of_isEligible (h : m.isEligible b = true) : m.contains b = true := by
  refine AddressMap.contains_iff.2 ⟨true, ?_⟩
  unfold isEligible at h
  cases hb : m.get? b <;> simp_all

/-- In a fresh table nobody is eligible. -/
theorem isEligible_ofRoster (roster : List Address) (a : Address) :
    (ofRoster roster).isEligible a = false :=
  Bool.eq_false_iff.2 fun h =>
    absurd (AddressMap.snd_eq_of_mem_ofKeys (isEligible_iff.1 h)) nofun

/-- **A change to one flag leaves the others alone**, and a flag outside the roster stays down. -/
theorem isEligible_mark (m : Membership) (a : Address) (e : Bool) (x : Address) :
    (m.mark a e).isEligible x = if x = a then m.contains a && e else m.isEligible x := by
  have hget : (m.mark a e).get? x =
      (m.get? x).map fun flag => if x = a then e else flag := by
    ext flag
    rw [AddressMap.get?_eq_some_iff, Option.map_eq_some_iff]
    simp only [mark, AddressMap.map, List.mem_map, Prod.mk.injEq, AddressMap.get?_eq_some_iff]
    constructor
    · rintro ⟨⟨y, f⟩, hy, rfl, rfl⟩
      exact ⟨f, hy, rfl⟩
    · rintro ⟨f, hf, rfl⟩
      exact ⟨(x, f), hf, rfl, rfl⟩
  unfold isEligible
  rw [hget]
  by_cases hx : x = a
  · subst hx
    cases hg : m.get? x with
    | none =>
      have hc : m.contains x = false := Bool.eq_false_iff.2 fun h => by
        obtain ⟨b, hb⟩ := AddressMap.contains_iff.1 h
        rw [hg] at hb
        cases hb
      simp [hc]
    | some flag =>
      have hc : m.contains x = true := AddressMap.contains_iff.2 ⟨flag, hg⟩
      simp [hc]
  · simp [hx]

/-- Whether anybody else takes turns depends on nobody but those others. -/
theorem anyBesides_congr {m' : Membership} {more : List Address}
    (h : ∀ x, x ∉ more → (m.isEligible x = true ↔ m'.isEligible x = true)) :
    m.anyBesides more = m'.anyBesides more := by
  rw [Bool.eq_iff_iff]
  simp only [anyBesides, List.any_eq_true, decide_eq_true_eq, mem_eligible]
  exact exists_congr fun x => and_congr_left fun hx => h x hx

/-- Who takes turns along with some more depends on nobody but the others. -/
theorem eligibleWith_congr {m' : Membership} {more : List Address}
    (h : ∀ x, x ∉ more → (m.isEligible x = true ↔ m'.isEligible x = true)) :
    m.eligibleWith more = m'.eligibleWith more := by
  refine AddressMap.keys_eq_of_contains fun x => ?_
  simp only [AddressMap.contains_ofKeys, List.mem_append, mem_eligible]
  by_cases hx : x ∈ more
  · simp [hx]
  · simp [hx, h x hx]

/-- An announcement names those eligible and those added to them. -/
theorem mem_eligibleWith {more : List Address} :
    b ∈ m.eligibleWith more ↔ m.isEligible b = true ∨ b ∈ more := by
  rw [eligibleWith, ← AddressMap.contains_iff_mem_keys, AddressMap.contains_ofKeys, List.mem_append,
    mem_eligible]

/-! ## The walk around the ring -/

/-- Everybody but `a` who takes turns, in the order of a walk that starts at `a`. -/
def following (m : Membership) (a : Address) : List Address :=
  m.eligible.filter (a < ·) ++ m.eligible.filter (· < a)

/-- **The successor is the first address on the walk.** -/
theorem successor_eq_head? (m : Membership) (a : Address) :
    m.successor a = (m.following a).head? := by
  unfold successor following
  rw [List.head?_append, List.head?_filter, List.head?_filter]
  cases m.eligible.find? fun x => a < x <;> rfl

theorem successor_of_following {rest : List Address} (h : m.following a = b :: rest) :
    m.successor a = some b := by
  rw [successor_eq_head?, h]
  rfl

/-- The walk visits every eligible address but the one it starts from. -/
theorem mem_following : b ∈ m.following a ↔ m.isEligible b = true ∧ b ≠ a := by
  simp only [following, List.mem_append, List.mem_filter, mem_eligible, decide_eq_true_eq,
    ← and_or_left, Address.lt_iff]
  refine and_congr_right fun _ => ⟨?_, fun h => ?_⟩
  · rintro h rfl
    omega
  · have := Address.toNat_ne h
    omega

/-- **The walk visits the nearest address first.** -/
theorem pairwise_gap_following (m : Membership) (a : Address) :
    (m.following a).Pairwise fun x y => a.gap x < a.gap y := by
  have hup := (pairwise_eligible m).imp (S := fun x y => x.toNat < y.toNat) Address.lt_iff.1
  refine List.pairwise_append.2 ⟨?_, ?_, fun x hx y hy => ?_⟩
  · refine (hup.filter _).imp_of_mem fun {x y} hx hy hxy => ?_
    have hax := Address.lt_iff.1 (of_decide_eq_true (List.mem_filter.1 hx).2)
    have hy := y.toNat_lt
    simp only [Address.gap]
    omega
  · refine (hup.filter _).imp_of_mem fun {x y} hx hy hxy => ?_
    have hya := Address.lt_iff.1 (of_decide_eq_true (List.mem_filter.1 hy).2)
    have ha := a.toNat_lt
    simp only [Address.gap]
    omega
  · have hax := Address.lt_iff.1 (of_decide_eq_true (List.mem_filter.1 hx).2)
    have hya := Address.lt_iff.1 (of_decide_eq_true (List.mem_filter.1 hy).2)
    have hx := x.toNat_lt
    simp only [Address.gap]
    omega

/-- A list that visits the nearest address first is known by whom it visits. -/
theorem eq_of_pairwise_gap {xs ys : List Address}
    (hx : xs.Pairwise fun x y => a.gap x < a.gap y) (hy : ys.Pairwise fun x y => a.gap x < a.gap y)
    (h : ∀ x, x ∈ xs ↔ x ∈ ys) : xs = ys := by
  have nodup : ∀ {zs : List Address}, (zs.Pairwise fun x y => a.gap x < a.gap y) → zs.Nodup :=
    fun hz => hz.imp fun hlt he => Nat.ne_of_lt hlt (congrArg _ he)
  exact List.Perm.eq_of_pairwise (fun _ _ _ _ hxy hyx => absurd hxy (Nat.lt_asymm hyx)) hx hy
    ((List.perm_ext_iff_of_nodup (nodup hx) (nodup hy)).2 h)

/-- **The successor is the nearest address that takes turns**, other than `a` itself. -/
theorem successor_eq_some_iff : m.successor a = some b ↔
    m.isEligible b = true ∧ b ≠ a ∧ ∀ x, m.isEligible x = true → x ≠ a → a.gap b ≤ a.gap x := by
  rw [successor_eq_head?]
  have hsorted := pairwise_gap_following m a
  constructor
  · intro h
    obtain ⟨rest, hrest⟩ := List.head?_eq_some_iff.1 h
    obtain ⟨hb, hba⟩ := mem_following.1 (List.mem_of_mem_head? h)
    refine ⟨hb, hba, fun x hx hxa => ?_⟩
    have hmem : x ∈ b :: rest := hrest ▸ mem_following.2 ⟨hx, hxa⟩
    rw [hrest] at hsorted
    rcases List.mem_cons.1 hmem with rfl | hmem
    · exact Nat.le_refl _
    · exact Nat.le_of_lt ((List.pairwise_cons.1 hsorted).1 x hmem)
  · rintro ⟨hb, hba, hle⟩
    have hmem := mem_following.2 ⟨hb, hba⟩
    cases hf : m.following a with
    | nil => rw [hf] at hmem; cases hmem
    | cons c rest =>
      obtain ⟨hc, hca⟩ := mem_following.1 (hf ▸ List.mem_cons_self : c ∈ m.following a)
      rw [hf] at hsorted hmem
      rcases List.mem_cons.1 hmem with rfl | hmem
      · rfl
      · have hlt := (List.pairwise_cons.1 hsorted).1 b hmem
        exact absurd (hle c hc hca) (Nat.not_le_of_lt hlt)

/-- Whoever is not the only one eligible has a successor. -/
theorem exists_successor (hb : m.isEligible b = true) (hba : b ≠ a) :
    ∃ c, m.successor a = some c := by
  rw [successor_eq_head?]
  cases h : m.following a with
  | nil =>
    have := mem_following.2 ⟨hb, hba⟩
    rw [h] at this
    cases this
  | cons c rest => exact ⟨c, rfl⟩

/-- **Who is left behind does not matter**: the walk from the next address on is the rest of the
walk, also when `a` has lost its place. -/
theorem following_mark {rest : List Address} (h : m.following a = b :: rest) :
    (m.mark a false).following b = rest := by
  have hsorted := pairwise_gap_following m a
  rw [h] at hsorted
  obtain ⟨hhead, hrest⟩ := List.pairwise_cons.1 hsorted
  refine eq_of_pairwise_gap (pairwise_gap_following _ b) ?_ fun x => ?_
  · exact hrest.imp_of_mem fun hx _ hxy => Address.gap_lt_gap (hhead _ hx) hxy
  · have hmem : x ∈ m.following a ↔ x = b ∨ x ∈ rest := by rw [h, List.mem_cons]
    rw [mem_following] at hmem
    rw [mem_following, isEligible_mark]
    constructor
    · rintro ⟨hx, hxb⟩
      by_cases hxa : x = a
      · simp [hxa] at hx
      · rw [if_neg hxa] at hx
        exact (hmem.1 ⟨hx, hxa⟩).resolve_left hxb
    · intro hx
      obtain ⟨he, hxa⟩ := hmem.2 (Or.inr hx)
      refine ⟨by rw [if_neg hxa, he], ?_⟩
      rintro rfl
      exact Nat.lt_irrefl _ (hhead x hx)

end Membership

end RadioRing
