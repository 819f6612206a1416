/-!
# Address — who is on the air, and in which network

An `Address` is the byte a radio answers to; the highest one, `Address.everyone`, reaches every
radio at once and names no single node.  A `Session` is the word that tells one network from
another.  Both come with the text the rest of the library prints for them.
-/

namespace RadioRing

/-- The content of a frame or of a payload. -/
abbrev Bytes := List UInt8

/-- A radio address: one byte. -/
structure Address where
  /-- The byte that goes on the air. -/
  byte : UInt8
deriving DecidableEq, Inhabited, Repr

namespace Address

/-- The address that every radio listens to. -/
def everyone : Address := ⟨255⟩

/-- Whether `a` stands for all nodes instead of one. -/
def isEveryone (a : Address) : Bool := a = everyone

instance : LT Address := ⟨fun a b => a.byte < b.byte⟩

instance : LE Address := ⟨fun a b => a.byte ≤ b.byte⟩

instance (a b : Address) : Decidable (a < b) := inferInstanceAs (Decidable (a.byte < b.byte))

instance (a b : Address) : Decidable (a ≤ b) := inferInstanceAs (Decidable (a.byte ≤ b.byte))

/-- The place of `a` in ascending order. -/
def toNat (a : Address) : Nat := a.byte.toNat

theorem lt_iff {a b : Address} : a < b ↔ a.toNat < b.toNat := UInt8.lt_iff_toNat_lt

theorem le_iff {a b : Address} : a ≤ b ↔ a.toNat ≤ b.toNat := UInt8.le_iff_toNat_le

theorem ext_toNat {a b : Address} (h : a.toNat = b.toNat) : a = b := by
  cases a
  cases b
  exact congrArg Address.mk (UInt8.toNat_inj.1 h)

/-- All addresses, ascending. -/
def all : List Address := (List.range 256).map fun n => ⟨n.toUInt8⟩

/-- The text of an address: its number, or the word for all nodes. -/
def text (a : Address) : String := if a.isEveryone then "broadcast" else toString a.toNat

end Address

/-- The identity of one network. -/
structure Session where
  /-- The word that goes on the air. -/
  word : UInt32
deriving DecidableEq, Inhabited, Repr

namespace Session

/-- The session a word stands for.  **Zero names no network** and is read as one. -/
def ofWord (w : UInt32) : Session := if w = 0 then ⟨1⟩ else ⟨w⟩

theorem ofWord_ne_zero (w : UInt32) : (ofWord w).word ≠ 0 := by
  unfold ofWord
  split <;> simp_all

theorem ofWord_word {s : Session} (h : s.word ≠ 0) : ofWord s.word = s := by
  simp [ofWord, h]

end Session

end RadioRing
