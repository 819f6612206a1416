import Mathlib.Data.List.Rotate
import RadioRing.Proofs.Outcome

/-!
# Proofs/FullCircle — a table makes one ring of all who take turns

`Membership.circle m a` lists `a` and whom it is followed by, nearest first.  **Seen from the next
one, the circle is the same but for its start** (`circle_successor`), so a walk from successor to
successor reads the circle off (`walk_eq`): it meets everybody once and is back at `a` after that.
Which circle it is depends on the last mark of each address alone (`markAll_ofRoster_congr`), so
nodes whose tables came about in different ways agree on every turn (`single_ring`).
-/

namespace RadioRing

/-- The flag that the last mark of `a` sets; before any mark it is down. -/
def lastFlag (marks : List Mark) (a : Address) : Bool :=
  ((marks.reverse.find? fun x => x.node = a).map Mark.eligible).getD false

namespace Membership

variable {m : Membership} {a b : Address} {rest : List Address}

/-! ## Once around -/

theorem successor_eq_none_iff :
    m.successor a = none ↔ ∀ x, m.isEligible x = true → x = a := by
  rw [successor_eq_head?, List.head?_eq_none_iff, List.eq_nil_iff_forall_not_mem]
  refine forall_congr' fun x => ?_
  rw [mem_following, not_and_not_right]

/-- **Who is left behind comes last**: the walk from the next address on is the rest of the walk,
and then `a`. -/
theorem following_of_following (ha : m.isEligible a = true) (h : m.following a = b :: rest) :
    m.following b = rest ++ [a] := by
  have hsorted := pairwise_gap_following m a
  rw [h] at hsorted
  obtain ⟨hhead, hrest⟩ := List.pairwise_cons.1 hsorted
  obtain ⟨hb, hba⟩ := mem_following.1 (h ▸ List.mem_cons_self : b ∈ m.following a)
  have hmem (x : Address) : m.isEligible x = true ∧ x ≠ a ↔ x = b ∨ x ∈ rest := by
    rw [← mem_following, h, List.mem_cons]
  refine eq_of_pairwise_gap (pairwise_gap_following m b) ?_ fun x => ?_
  · refine List.pairwise_append.2 ⟨?_, List.pairwise_singleton _ _, fun x hx y hy => ?_⟩
    · exact hrest.imp_of_mem fun hx _ hxy => Address.gap_lt_gap (hhead _ hx) hxy
    · obtain rfl := List.mem_singleton.1 hy
      exact Address.gap_lt_gap_start hba (hhead x hx)
  · rw [mem_following, List.mem_append, List.mem_singleton]
    constructor
    · rintro ⟨hx, hxb⟩
      by_cases hxa : x = a
      · exact Or.inr hxa
      · exact Or.inl (((hmem x).1 ⟨hx, hxa⟩).resolve_left hxb)
    · rintro (hx | rfl)
      · refine ⟨((hmem x).2 (Or.inr hx)).1, ?_⟩
        rintro rfl
        exact Nat.lt_irrefl _ (hhead x hx)
      · exact ⟨ha, hba.symm⟩

/-- Everybody who takes turns, in the order of a walk that starts with `a`. -/
def circle (m : Membership) (a : Address) : List Address := a :: m.following a

theorem mem_circle (ha : m.isEligible a = true) : b ∈ m.circle a ↔ m.isEligible b = true := by
  rw [circle, List.mem_cons, mem_following]
  constructor
  · rintro (rfl | ⟨hb, -⟩)
    · exact ha
    · exact hb
  · intro hb
    by_cases hba : b = a
    · exact Or.inl hba
    · exact Or.inr ⟨hb, hba⟩

theorem nodup_circle (m : Membership) (a : Address) : (m.circle a).Nodup := by
  refine List.nodup_cons.2 ⟨fun ha => (mem_following.1 ha).2 rfl, ?_⟩
  exact (pairwise_gap_following m a).imp fun hlt he => Nat.ne_of_lt hlt (congrArg _ he)

/-- The circle leaves nobody out. -/
theorem length_circle (ha : m.isEligible a = true) :
    (m.circle a).length = m.eligible.length := by
  have hnodup : m.eligible.Nodup := (pairwise_eligible m).imp Address.ne_of_lt
  exact ((List.perm_ext_iff_of_nodup (nodup_circle m a) hnodup).2 fun x =>
    (mem_circle ha).trans mem_eligible.symm).length_eq

/-- **Seen from the successor, the circle starts one place further on.** -/
theorem circle_successor (ha : m.isEligible a = true) (h : m.following a = b :: rest) :
    m.circle b = (m.circle a).rotate 1 := by
  rw [circle, circle, following_of_following ha h, h, List.rotate_cons_succ, List.rotate_zero,
    List.cons_append]

/-! ## From successor to successor -/

/-- Whom the token has come to after `k` turns, if every holder hands it to its successor. -/
def walk (m : Membership) (a : Address) : Nat → Option Address
  | 0 => some a
  | k + 1 => (m.walk a k).bind m.successor

section Walk

variable (ha : m.isEligible a = true) (two : 2 ≤ m.eligible.length)

include ha two

/-- After every turn the circle is the same, seen from the one whose turn it is. -/
theorem circle_walk (k : Nat) : ∃ b, m.walk a k = some b ∧ m.isEligible b = true ∧
    m.circle b = (m.circle a).rotate k := by
  induction k with
  | zero => exact ⟨a, rfl, ha, (List.rotate_zero _).symm⟩
  | succ k ih =>
    obtain ⟨b, hwalk, hb, hcircle⟩ := ih
    cases hfollowing : m.following b with
    | nil =>
      -- With two in the circle, somebody follows.
      have hlength := length_circle hb
      rw [circle, hfollowing, List.length_singleton] at hlength
      omega
    | cons c rest =>
      have hc : c ∈ m.following b := hfollowing ▸ List.mem_cons_self
      refine ⟨c, ?_, (mem_following.1 hc).1, ?_⟩
      · rw [walk, hwalk, Option.bind_some, successor_of_following hfollowing]
      · rw [circle_successor hb hfollowing, hcircle, List.rotate_rotate]

/-- **A walk from successor to successor reads the circle off.** -/
theorem walk_eq {k : Nat} (hk : k < m.eligible.length) : m.walk a k = (m.circle a)[k]? := by
  obtain ⟨b, hwalk, -, hcircle⟩ := circle_walk ha two k
  rw [hwalk, ← List.head?_rotate ((length_circle ha).symm ▸ hk), ← hcircle]
  rfl

/-- Once everybody has had a turn, it is the first one's turn again. -/
theorem walk_length : m.walk a m.eligible.length = some a := by
  obtain ⟨b, hwalk, -, hcircle⟩ := circle_walk ha two m.eligible.length
  rw [← length_circle ha, List.rotate_length] at hcircle
  rw [hwalk, (List.cons.inj hcircle).1]

/-- **Before that, everybody has exactly one turn.** -/
theorem existsUnique_walk (hb : m.isEligible b = true) :
    ∃! k, k < m.eligible.length ∧ m.walk a k = some b := by
  obtain ⟨k, hk, hget⟩ := List.mem_iff_getElem.1 ((mem_circle ha).2 hb)
  have hlength := length_circle ha
  refine ⟨k, ⟨hlength ▸ hk, ?_⟩, ?_⟩
  · rw [walk_eq ha two (hlength ▸ hk), List.getElem?_eq_getElem hk, hget]
  · rintro j ⟨hj, hwalk⟩
    rw [walk_eq ha two hj, ← hget, ← List.getElem?_eq_getElem hk] at hwalk
    exact (List.getElem?_inj (hlength ▸ hj) (nodup_circle m a)).1 hwalk

end Walk

/-! ## What a table remembers of its marks -/

theorem entries_eq (m : Membership) : m.entries = m.keys.map fun a => (a, m.isEligible a) := by
  have hflag (e : Address × Bool) (he : e ∈ m.entries) : (e.1, m.isEligible e.1) = e := by
    rw [isEligible, AddressMap.get?_eq_some_iff.2 he, Option.getD_some]
  rw [AddressMap.keys, List.map_map]
  exact ((List.map_congr_left hflag).trans (List.map_id _)).symm

/-- **Tables over the same addresses are the same if the same addresses are eligible.** -/
theorem eq_of_isEligible {m' : Membership} (hkeys : m.keys = m'.keys)
    (h : ∀ x ∈ m.keys, m.isEligible x = m'.isEligible x) : m = m' := by
  refine AddressMap.ext ?_
  rw [entries_eq m, entries_eq m', ← hkeys]
  exact List.map_congr_left fun x hx => congrArg _ (h x hx)

/-- **Of many marks the last one of each address counts.** -/
theorem isEligible_markAll_ofRoster {roster : List Address} (marks : List Mark)
    (ha : a ∈ roster) : ((ofRoster roster).markAll marks).isEligible a = lastFlag marks a := by
  have hroster : (ofRoster roster).contains a = true := AddressMap.contains_ofKeys.2 ha
  -- The last mark is the one that was made after all others.
  induction marks using List.reverseRecOn with
  | nil => exact isEligible_ofRoster roster a
  | append_singleton marks x ih =>
    have hlast : (ofRoster roster).markAll (marks ++ [x]) =
        ((ofRoster roster).markAll marks).mark x.node x.eligible := List.foldl_concat ..
    rw [hlast, isEligible_mark, contains_markAll, lastFlag, List.reverse_concat, List.find?_cons]
    by_cases hx : x.node = a
    · subst hx
      simp [hroster]
    · rw [if_neg (Ne.symm hx), ih, decide_eq_false hx]
      rfl

theorem markAll_ofRoster_congr {roster roster' : List Address} {marks marks' : List Mark}
    (same : ∀ a, a ∈ roster ↔ a ∈ roster')
    (agree : ∀ a ∈ roster, lastFlag marks a = lastFlag marks' a) :
    (ofRoster roster).markAll marks = (ofRoster roster').markAll marks' := by
  have mem_keys (roster : List Address) (marks : List Mark) (x : Address) :
      ((ofRoster roster).markAll marks).contains x = true ↔ x ∈ roster := by
    rw [contains_markAll, ofRoster, AddressMap.contains_ofKeys]
  refine eq_of_isEligible (AddressMap.keys_eq_of_contains fun x => ?_) fun x hx => ?_
  · rw [mem_keys, mem_keys, same]
  · have hx := (mem_keys roster marks x).1 (AddressMap.contains_iff_mem_keys.2 hx)
    rw [isEligible_markAll_ofRoster marks hx, isEligible_markAll_ofRoster marks' ((same x).1 hx),
      agree x hx]

end Membership

/-- **Every table makes one ring.**  The successor of an address is whoever takes turns, is not the
address itself, and is reached first going up and around; there is none exactly if nobody else takes
turns.  If at least two take turns, then the walk from one of them to its successor, and so on,
meets only such as take turns, comes back to where it began after as many steps as there are of
them, and until then meets each of them exactly once.  Tables over the same addresses in which each
address was marked the same way last are the same and have the same successors, however often and in
whatever order their addresses were marked. -/
theorem single_ring :
    (∀ (m : Membership) (a b : Address), m.successor a = some b ↔ m.isEligible b = true ∧ b ≠ a ∧
      ∀ x, m.isEligible x = true → x ≠ a → a.gap b ≤ a.gap x) ∧
    (∀ (m : Membership) (a : Address),
      m.successor a = none ↔ ∀ x, m.isEligible x = true → x = a) ∧
    (∀ (m : Membership) (a : Address), m.isEligible a = true → 2 ≤ m.eligible.length →
      (∀ k, ∃ b, m.walk a k = some b ∧ m.isEligible b = true) ∧
      m.walk a m.eligible.length = some a ∧
      ∀ b, m.isEligible b = true → ∃! k, k < m.eligible.length ∧ m.walk a k = some b) ∧
    ∀ (roster roster' : List Address) (marks marks' : List Mark),
      (∀ a, a ∈ roster ↔ a ∈ roster') → (∀ a ∈ roster, lastFlag marks a = lastFlag marks' a) →
      (Membership.ofRoster roster).markAll marks = (Membership.ofRoster roster').markAll marks' ∧
      ∀ a, ((Membership.ofRoster roster).markAll marks).successor a =
        ((Membership.ofRoster roster').markAll marks').successor a := by
  refine ⟨fun m a b => Membership.successor_eq_some_iff,
    fun m a => Membership.successor_eq_none_iff, fun m a ha two => ⟨fun k => ?_,
    Membership.walk_length ha two, fun b => Membership.existsUnique_walk ha two⟩,
    fun roster roster' marks marks' same agree => ?_⟩
  · obtain ⟨b, hwalk, hb, -⟩ := Membership.circle_walk ha two k
    exact ⟨b, hwalk, hb⟩
  · have hsame := Membership.markAll_ofRoster_congr same agree
    exact ⟨hsame, fun a => by rw [hsame]⟩

/-- Nodes 1, 3 and 5 come to take turns in ascending order. -/
def risingMarks : List Mark := [⟨⟨1⟩, true⟩, ⟨⟨3⟩, true⟩, ⟨⟨5⟩, true⟩]

/-- They come to take turns in descending order, with a change of mind about node 4 and a
mark of a node that there is not. -/
def fallingMarks : List Mark :=
  [⟨⟨5⟩, true⟩, ⟨⟨4⟩, true⟩, ⟨⟨9⟩, true⟩, ⟨⟨3⟩, true⟩, ⟨⟨4⟩, false⟩, ⟨⟨1⟩, true⟩]

/-- **Nodes 1, 3 and 5 of five make one ring**, whichever way they came to take turns: from node 3
the token is back after three turns, and node 1 has had one of them. -/
theorem single_ring_of_five :
    let m := (Membership.ofRoster [⟨1⟩, ⟨2⟩, ⟨3⟩, ⟨4⟩, ⟨5⟩]).markAll risingMarks
    m = (Membership.ofRoster [⟨5⟩, ⟨4⟩, ⟨3⟩, ⟨2⟩, ⟨1⟩]).markAll fallingMarks ∧
    m.walk ⟨3⟩ 3 = some ⟨3⟩ ∧ ∃! k, k < 3 ∧ m.walk ⟨3⟩ k = some ⟨1⟩ := by
  intro m
  obtain ⟨-, -, circles, agree⟩ := single_ring
  have three : m.eligible.length = 3 := by decide
  obtain ⟨-, back, once⟩ := circles m ⟨3⟩ (by decide) (by decide)
  rw [three] at back once
  refine ⟨(agree [⟨1⟩, ⟨2⟩, ⟨3⟩, ⟨4⟩, ⟨5⟩] [⟨5⟩, ⟨4⟩, ⟨3⟩, ⟨2⟩, ⟨1⟩] risingMarks fallingMarks
    (fun _ => List.mem_reverse.symm) (by decide)).1, back, once ⟨1⟩ (by decide)⟩

end RadioRing
