import RadioRing.Node.Basic

/-!
# Proofs/TokenRounds — the rounds of a node as numbers

Every fact about `Rounds` that the protocol rests on, read in `Nat`: noting and taking a round raise
what is known and never lower it, a fresh offer is above what is held, and **a minted token is one
above everything known** as long as the last round has not been reached (`toNat_next`).
-/

namespace RadioRing

/-- The last round of all: nothing is above it. -/
def lastRound : Nat := 4294967295

theorem toNat_le_lastRound (w : UInt32) : w.toNat ≤ lastRound :=
  Nat.le_of_lt_succ w.toNat_lt

theorem toNat_lt_lastRound {w : UInt32} (h : w ≠ 4294967295) : w.toNat < lastRound :=
  Nat.lt_of_le_of_ne (toNat_le_lastRound w) fun e => h (UInt32.toNat_inj.1 e)

theorem toNat_max (x y : UInt32) : (max x y).toNat = max x.toNat y.toNat := by
  have h : max x y = if x ≤ y then y else x := rfl
  rw [h, Nat.max_def]
  simp only [UInt32.le_iff_toNat_le]
  split <;> rfl

namespace Rounds

/-- Everything known, as one number. -/
def top (r : Rounds) : Nat := max r.held.toNat r.seen.toNat

@[simp] theorem held_observe (r : Rounds) (round : UInt32) : (r.observe round).held = r.held := rfl

/-- A round that is noticed raises what is seen, and never lowers it. -/
@[simp] theorem toNat_seen_observe (r : Rounds) (round : UInt32) :
    (r.observe round).seen.toNat = max r.seen.toNat round.toNat :=
  toNat_max _ _

/-- A token that is taken raises what is held, and never lowers it. -/
@[simp] theorem toNat_held_accept (r : Rounds) (round : UInt32) :
    (r.accept round).held.toNat = max r.held.toNat round.toNat :=
  toNat_max _ _

@[simp] theorem toNat_seen_accept (r : Rounds) (round : UInt32) :
    (r.accept round).seen.toNat = max r.seen.toNat round.toNat :=
  toNat_max _ _

/-- **Fresh is a round above what is held and not below what is seen.** -/
theorem isFresh_iff {r : Rounds} {round : UInt32} :
    r.isFresh round = true ↔ r.held.toNat < round.toNat ∧ r.seen.toNat ≤ round.toNat := by
  simp [isFresh, UInt32.lt_iff_toNat_lt, UInt32.le_iff_toNat_le]

/-- Whoever takes a fresh token holds its round. -/
theorem held_accept_of_isFresh {r : Rounds} {round : UInt32} (h : r.isFresh round = true) :
    (r.accept round).held = round := by
  refine UInt32.toNat_inj.1 ((toNat_held_accept r round).trans (Nat.max_eq_right ?_))
  exact Nat.le_of_lt (isFresh_iff.1 h).1

/-- **A minted token is one above everything known.** -/
theorem toNat_next {r : Rounds} (h : r.top < lastRound) : r.next.toNat = r.top + 1 := by
  have hmax : (max r.held r.seen).toNat = r.top := toNat_max _ _
  have hne : max r.held r.seen ≠ 4294967295 := fun e => by
    rw [e] at hmax
    exact absurd hmax (Nat.ne_of_gt h)
  have hadd : (max r.held r.seen + 1).toNat = (r.top + 1) % 4294967296 := by
    rw [UInt32.toNat_add, hmax]
    rfl
  simp only [next, hne, if_false]
  rw [hadd, Nat.mod_eq_of_lt]
  exact Nat.succ_lt_succ h

/-- At the last round, minting starts over with that round. -/
theorem toNat_next_last {r : Rounds} (h : r.top = lastRound) : r.next.toNat = lastRound := by
  have hmax : (max r.held r.seen).toNat = r.top := toNat_max _ _
  have he : max r.held r.seen = 4294967295 := UInt32.toNat_inj.1 (hmax.trans h)
  simp only [next, he, if_true]
  rfl

theorem top_le_lastRound (r : Rounds) : r.top ≤ lastRound :=
  Nat.max_le.2 ⟨toNat_le_lastRound _, toNat_le_lastRound _⟩

/-- Minting never falls behind what is known. -/
theorem top_le_toNat_next (r : Rounds) : r.top ≤ r.next.toNat := by
  rcases Nat.lt_or_eq_of_le r.top_le_lastRound with h | h
  · rw [toNat_next h]
    exact Nat.le_succ _
  · exact Nat.le_of_eq (h.trans (toNat_next_last h).symm)

/-- The next token is above every one that is not above the token held. -/
theorem lt_toNat_next {r : Rounds} {x : Nat} (hx : x ≤ r.held.toNat) (hlast : x < lastRound) :
    x < r.next.toNat := by
  have hheld : r.held.toNat ≤ r.top := Nat.le_max_left _ _
  rcases Nat.lt_or_eq_of_le r.top_le_lastRound with h | h
  · rw [toNat_next h]
    omega
  · rwa [toNat_next_last h]

/-- **A node that claims the token holds the round that it mints.** -/
theorem held_claim (r : Rounds) : r.claim.held = r.next := by
  have h : r.held.toNat ≤ r.next.toNat := Nat.le_trans (Nat.le_max_left _ _) r.top_le_toNat_next
  exact UInt32.toNat_inj.1 ((toNat_held_accept r r.next).trans (Nat.max_eq_right h))

/-- A claim rises above what was held, up to the last round. -/
theorem held_lt_claim {r : Rounds} {x : Nat} (hx : x ≤ r.held.toNat) :
    x < r.claim.held.toNat ∨ r.claim.held.toNat = lastRound := by
  rw [held_claim]
  rcases Nat.lt_or_eq_of_le r.top_le_lastRound with h | h
  · have hheld : r.held.toNat ≤ r.top := Nat.le_max_left _ _
    rw [toNat_next h]
    omega
  · exact Or.inr (toNat_next_last h)

/-- A node that mints a token has seen its round, too. -/
theorem seen_claim (r : Rounds) : r.claim.seen = r.next := by
  have h : r.seen.toNat ≤ r.next.toNat := Nat.le_trans (Nat.le_max_right _ _) r.top_le_toNat_next
  exact UInt32.toNat_inj.1 ((toNat_seen_accept r r.next).trans (Nat.max_eq_right h))

end Rounds

end RadioRing
