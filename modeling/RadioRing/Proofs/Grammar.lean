import RadioRing.Proofs.RoundTrip

/-!
# Proofs/Grammar — which bytes are a message, and what is wrong with the others

`Message.Grammatical` describes the frames that are messages, and `Message.Breaks` the rules that a
frame can break; the first broken one, in the order in which they are tried, is the error that tells
(`Message.FirstBroken`).  **The reader accepts exactly the grammar and blames the first broken
rule** (`frame_grammar`).  It never looks for a byte that is not there: `Message.byPosition` reads a
frame by its length and by positions in it, has no result at all where a position is past the end,
and always comes to the result of the reader.
-/

namespace RadioRing

namespace Tag

/-- Two kinds have different first bytes. -/
theorem byte_inj {t t' : Tag} (h : t.byte = t'.byte) : t = t' := by
  have hkind := congrArg ofByte? h
  simpa using hkind

/-- How many bytes a frame of this kind needs.  An admission needs as many more as it counts
members, once it is long enough to count them. -/
def needed (frame : Bytes) : Tag → Nat
  | data | retry => 5
  | ack => 1
  | turn => 10
  | joinRequest => 2
  | joinAck =>
    match frame[11]? with
    | some count => 12 + count.toNat
    | none => 12

/-- Whether a frame of this kind ends with the bytes that it needs. -/
def isClosed : Tag → Bool
  | data | retry | ack => false
  | turn | joinRequest | joinAck => true

/-- The bytes of a frame of this kind that have to name single nodes. -/
def nodeBytes (frame : Bytes) : Tag → Bytes
  | data | retry | ack => []
  | turn | joinRequest => (frame.drop 1).take 1
  | joinAck => (frame.drop 1).take 1 ++ frame.drop 12

/-- What is wrong with the length of a frame of this kind, if it is not the one that is needed. -/
def misfit (t : Tag) (needed length : Nat) : FrameError :=
  if length < needed then .truncated t needed length else .trailing t (length - needed)

end Tag

/-- The place of an error in the order in which the rules are tried. -/
def FrameError.rank : FrameError → Nat
  | empty => 0
  | unknownTag _ => 1
  | truncated .. => 2
  | trailing .. => 3
  | namesEveryone _ => 4

namespace Message

/-! ## The grammar and its rules -/

/-- The frames that are messages, by the number that they start with. -/
inductive Grammatical (frame : Bytes) : Prop
  | payload (first : frame.head? = some 0 ∨ frame.head? = some 1) (long : 5 ≤ frame.length)
  | ack (first : frame.head? = some 2)
  | turn (first : frame.head? = some 3) (length : frame.length = 10)
      (target : frame[1]? ≠ some 255)
  | joinRequest (first : frame.head? = some 4) (length : frame.length = 2)
      (joiner : frame[1]? ≠ some 255)
  | joinAck {count : UInt8} (first : frame.head? = some 5) (long : 12 ≤ frame.length)
      (counts : frame[11]? = some count) (length : frame.length = 12 + count.toNat)
      (target : frame[1]? ≠ some 255) (members : 255 ∉ frame.drop 12)

/-- The rules that a frame can break, each with the error that tells it. -/
inductive Breaks (frame : Bytes) : FrameError → Prop
  | empty (nothing : frame = []) : Breaks frame .empty
  | unknownTag {byte : UInt8} (first : frame.head? = some byte)
      (unknown : ∀ tag : Tag, tag.byte ≠ byte) : Breaks frame (.unknownTag byte)
  | truncated {tag : Tag} (first : frame.head? = some tag.byte)
      (short : frame.length < tag.needed frame) :
      Breaks frame (.truncated tag (tag.needed frame) frame.length)
  | trailing {tag : Tag} (first : frame.head? = some tag.byte) (closed : tag.isClosed = true)
      (long : tag.needed frame < frame.length) :
      Breaks frame (.trailing tag (frame.length - tag.needed frame))
  | namesEveryone {tag : Tag} (first : frame.head? = some tag.byte)
      (named : Address.everyone.byte ∈ tag.nodeBytes frame) : Breaks frame (.namesEveryone tag)

/-- The frame breaks the rule, and no rule that is tried before it. -/
structure FirstBroken (frame : Bytes) (e : FrameError) : Prop where
  breaks : Breaks frame e
  first : ∀ e', Breaks frame e' → e.rank ≤ e'.rank

variable {frame : Bytes} {tag : Tag} {e e' : FrameError}

/-- A frame that starts with the byte of a kind is judged by the rules for that kind. -/
theorem Breaks.of_first (h : Breaks frame e) (first : frame.head? = some tag.byte) :
    e = .truncated tag (tag.needed frame) frame.length ∧ frame.length < tag.needed frame ∨
    e = .trailing tag (frame.length - tag.needed frame) ∧ tag.isClosed = true ∧
      tag.needed frame < frame.length ∨
    e = .namesEveryone tag ∧ Address.everyone.byte ∈ tag.nodeBytes frame := by
  have same {tag' : Tag} (first' : frame.head? = some tag'.byte) : tag' = tag :=
    Tag.byte_inj (Option.some.inj (first'.symm.trans first))
  cases h with
  | empty nothing =>
    rw [nothing] at first
    exact absurd first nofun
  | unknownTag first' unknown =>
    exact absurd (Option.some.inj (first.symm.trans first')) (unknown tag)
  | truncated first' short =>
    obtain rfl := same first'
    exact Or.inl ⟨rfl, short⟩
  | trailing first' closed long =>
    obtain rfl := same first'
    exact Or.inr (Or.inl ⟨rfl, closed, long⟩)
  | namesEveryone first' named =>
    obtain rfl := same first'
    exact Or.inr (Or.inr ⟨rfl, named⟩)

/-- **Rules of one rank are not broken with two errors.** -/
theorem Breaks.eq_of_rank (h : Breaks frame e) (h' : Breaks frame e') (hrank : e.rank = e'.rank) :
    e = e' := by
  have kind {tag : Tag} (first : frame.head? = some tag.byte) (h : Breaks frame e)
      (h' : Breaks frame e') : e = e' := by
    rcases h.of_first first with ⟨rfl, -⟩ | ⟨rfl, -⟩ | ⟨rfl, -⟩ <;>
      rcases h'.of_first first with ⟨rfl, -⟩ | ⟨rfl, -⟩ | ⟨rfl, -⟩ <;>
      first | rfl | exact absurd hrank nofun
  cases h with
  | empty =>
    cases h' with
    | empty => rfl
    | _ => exact absurd hrank nofun
  | unknownTag first =>
    cases h' with
    | unknownTag first' => rw [Option.some.inj (first.symm.trans first')]
    | _ => exact absurd hrank nofun
  | truncated first short => exact kind first (.truncated first short) h'
  | trailing first closed long => exact kind first (.trailing first closed long) h'
  | namesEveryone first named => exact kind first (.namesEveryone first named) h'

/-- **A frame has one first broken rule.** -/
theorem FirstBroken.unique (h : FirstBroken frame e) (h' : FirstBroken frame e') : e = e' :=
  h.breaks.eq_of_rank h'.breaks (Nat.le_antisymm (h.first e' h'.breaks) (h'.first e h.breaks))

/-- A frame of a known kind that is too short breaks no earlier rule. -/
theorem firstBroken_truncated (tag : Tag) (first : frame.head? = some tag.byte)
    (short : frame.length < tag.needed frame) :
    FirstBroken frame (.truncated tag (tag.needed frame) frame.length) := by
  refine ⟨.truncated first short, fun e' h' => ?_⟩
  rcases h'.of_first first with ⟨rfl, -⟩ | ⟨rfl, -⟩ | ⟨rfl, -⟩ <;> simp [FrameError.rank]

theorem firstBroken_trailing (tag : Tag) (first : frame.head? = some tag.byte)
    (closed : tag.isClosed = true) (long : tag.needed frame < frame.length) :
    FirstBroken frame (.trailing tag (frame.length - tag.needed frame)) := by
  refine ⟨.trailing first closed long, fun e' h' => ?_⟩
  rcases h'.of_first first with ⟨-, short⟩ | ⟨rfl, -⟩ | ⟨rfl, -⟩
  · exact absurd short (Nat.lt_asymm long)
  · exact Nat.le_refl _
  · simp [FrameError.rank]

/-- A closed frame of a wrong length is blamed for its length, whatever it names. -/
theorem firstBroken_misfit (tag : Tag) (first : frame.head? = some tag.byte)
    (closed : tag.isClosed = true) (length : frame.length ≠ tag.needed frame) :
    FirstBroken frame (tag.misfit (tag.needed frame) frame.length) := by
  unfold Tag.misfit
  split
  · exact firstBroken_truncated tag first ‹_›
  · rename_i hlong
    exact firstBroken_trailing tag first closed
      (Nat.lt_of_le_of_ne (Nat.not_lt.1 hlong) (Ne.symm length))

/-- Only a frame of the right length is blamed for the nodes it names. -/
theorem firstBroken_namesEveryone (tag : Tag) (first : frame.head? = some tag.byte)
    (length : frame.length = tag.needed frame)
    (named : Address.everyone.byte ∈ tag.nodeBytes frame) :
    FirstBroken frame (.namesEveryone tag) := by
  refine ⟨.namesEveryone first named, fun e' h' => ?_⟩
  rcases h'.of_first first with ⟨-, short⟩ | ⟨-, -, long⟩ | ⟨rfl, -⟩
  · exact absurd short (Nat.not_lt.2 (Nat.le_of_eq length.symm))
  · exact absurd long (Nat.not_lt.2 (Nat.le_of_eq length))
  · exact Nat.le_refl _

/-- **A frame of the grammar breaks no rule.** -/
theorem Grammatical.not_breaks (h : Grammatical frame) : ¬Breaks frame e := by
  intro hb
  have single {byte : UInt8} (hbyte : frame[1]? ≠ some 255)
      (named : byte ∈ (frame.drop 1).take 1) : byte ≠ Address.everyone.byte := by
    rintro rfl
    refine hbyte ?_
    cases frame with
    | nil => exact absurd named List.not_mem_nil
    | cons _ rest =>
      cases rest with
      | nil => exact absurd named List.not_mem_nil
      | cons b _ => exact congrArg some (List.mem_singleton.1 named).symm
  have judged {k : Tag} (first : frame.head? = some k.byte)
      (short : ¬frame.length < k.needed frame)
      (long : k.isClosed = true → ¬k.needed frame < frame.length)
      (names : Address.everyone.byte ∉ k.nodeBytes frame) : False := by
    rcases hb.of_first first with ⟨-, hshort⟩ | ⟨-, closed, hlong⟩ | ⟨-, named⟩
    · exact short hshort
    · exact long closed hlong
    · exact names named
  cases h with
  | payload first long =>
    rcases first with first | first
    · exact judged (k := .data) first (Nat.not_lt.2 long) nofun List.not_mem_nil
    · exact judged (k := .retry) first (Nat.not_lt.2 long) nofun List.not_mem_nil
  | ack first =>
    refine judged (k := .ack) first (fun hshort => ?_) nofun List.not_mem_nil
    obtain rfl : frame = [] := List.eq_nil_of_length_eq_zero (Nat.lt_one_iff.1 hshort)
    exact absurd first nofun
  | turn first length target =>
    exact judged (k := .turn) first (fun h => absurd length (Nat.ne_of_lt h))
      (fun _ h => absurd length (Nat.ne_of_gt h)) fun named => single target named rfl
  | joinRequest first length joiner =>
    exact judged (k := .joinRequest) first (fun h => absurd length (Nat.ne_of_lt h))
      (fun _ h => absurd length (Nat.ne_of_gt h)) fun named => single joiner named rfl
  | @joinAck count first long counts length target members =>
    have hneeded : Tag.joinAck.needed frame = 12 + count.toNat := by
      simp only [Tag.needed, counts]
    refine judged (k := .joinAck) first (fun h => ?_) (fun _ h => ?_) fun named => ?_
    · exact absurd (hneeded ▸ length) (Nat.ne_of_lt h)
    · exact absurd (hneeded ▸ length) (Nat.ne_of_gt h)
    · rcases List.mem_append.1 named with named | named
      · exact single target named rfl
      · exact members named

/-! ## The shape of a frame of known length -/

/-- What follows the first byte of a payload begins with the four bytes of a round. -/
theorem eq_of_length_payload {rest : Bytes} (h : 4 ≤ rest.length) :
    ∃ a b c d body, rest = a :: b :: c :: d :: body := by
  rcases rest with _ | ⟨a, _ | ⟨b, _ | ⟨c, _ | ⟨d, body⟩⟩⟩⟩
  all_goals first
    | exact ⟨_, _, _, _, _, rfl⟩
    | simp at h

theorem eq_of_length_turn {rest : Bytes} (h : rest.length = 9) :
    ∃ target s₀ s₁ s₂ s₃ r₀ r₁ r₂ r₃, rest = [target, s₀, s₁, s₂, s₃, r₀, r₁, r₂, r₃] := by
  rcases rest with _ | ⟨target, _ | ⟨s₀, _ | ⟨s₁, _ | ⟨s₂, _ | ⟨s₃, _ | ⟨r₀, _ | ⟨r₁, _ | ⟨r₂,
    _ | ⟨r₃, _ | ⟨next, more⟩⟩⟩⟩⟩⟩⟩⟩⟩⟩
  all_goals first
    | exact ⟨_, _, _, _, _, _, _, _, _, rfl⟩
    | simp at h

/-- What follows the first byte of an admission that counts its members goes up to that count, and
then to the members. -/
theorem eq_of_length_joinAck {rest : Bytes} (h : 11 ≤ rest.length) :
    ∃ target s₀ s₁ s₂ s₃ r₀ r₁ r₂ r₃ flags count members, rest =
      target :: s₀ :: s₁ :: s₂ :: s₃ :: r₀ :: r₁ :: r₂ :: r₃ :: flags :: count :: members := by
  rcases rest with _ | ⟨target, _ | ⟨s₀, _ | ⟨s₁, _ | ⟨s₂, _ | ⟨s₃, _ | ⟨r₀, _ | ⟨r₁, _ | ⟨r₂,
    _ | ⟨r₃, _ | ⟨flags, _ | ⟨count, members⟩⟩⟩⟩⟩⟩⟩⟩⟩⟩⟩
  all_goals first
    | exact ⟨_, _, _, _, _, _, _, _, _, _, _, _, rfl⟩
    | simp at h

/-- A payload without a whole round is cut off. -/
theorem decodePayload_of_length {build : UInt32 → Bytes → Message} {rest : Bytes}
    (h : rest.length + 1 < 5) :
    decodePayload tag build rest = .error (.truncated tag 5 (rest.length + 1)) := by
  unfold decodePayload
  split
  · simp only [List.length_cons] at h
    omega
  · rw [Nat.add_comm]

/-- An offer of any other length than ten bytes does not fit. -/
theorem decodeTurn_of_length {rest : Bytes} (h : rest.length + 1 ≠ 10) :
    decodeTurn rest = .error (Tag.turn.misfit 10 (rest.length + 1)) := by
  have hlt : rest.length + 1 < 10 ↔ rest.length < 9 := Nat.succ_lt_succ_iff
  unfold decodeTurn
  split
  · exact absurd rfl h
  · simp only [Tag.misfit, hlt, Nat.add_comm 1, Nat.reduceSubDiff]
    split <;> rfl

theorem decodeJoinRequest_of_length {rest : Bytes} (h : rest.length + 1 ≠ 2) :
    decodeJoinRequest rest = .error (Tag.joinRequest.misfit 2 (rest.length + 1)) := by
  have hlt : rest.length + 1 < 2 ↔ rest.length < 1 := Nat.succ_lt_succ_iff
  unfold decodeJoinRequest
  split
  · exact absurd rfl h
  · simp only [Tag.misfit, hlt, Nat.add_comm 1, Nat.reduceSubDiff]
    split <;> rfl

/-- An admission that ends before its count is cut off there. -/
theorem decodeJoinAck_of_short {rest : Bytes} (h : rest.length + 1 < 12) :
    decodeJoinAck rest = .error (.truncated .joinAck 12 (rest.length + 1)) := by
  unfold decodeJoinAck
  split
  · simp only [List.length_cons] at h
    omega
  · rw [Nat.add_comm]

/-- An admission with more members than it counts, or fewer, does not fit. -/
theorem decodeJoinAck_of_length {target s₀ s₁ s₂ s₃ r₀ r₁ r₂ r₃ flags count : UInt8}
    {members : Bytes} (h : members.length + 12 ≠ 12 + count.toNat) :
    decodeJoinAck (target :: s₀ :: s₁ :: s₂ :: s₃ :: r₀ :: r₁ :: r₂ :: r₃ :: flags :: count ::
      members) = .error (Tag.joinAck.misfit (12 + count.toNat) (members.length + 12)) := by
  rw [Nat.add_comm 12] at h ⊢
  simp only [decodeJoinAck, Tag.misfit, Nat.add_lt_add_iff_right, Nat.add_sub_add_right,
    Nat.add_comm 12]
  split
  · rfl
  · rw [if_pos (by omega)]

/-! ## Reading by position -/

/-- What reading by position comes to: nothing at all if it looks for a byte that is not there. -/
abbrev Positional (β : Type) : Type := ExceptT FrameError Option β

/-- The byte at a position. -/
def byteAt (frame : Bytes) (i : Nat) : Positional UInt8 := ExceptT.lift frame[i]?

/-- The bytes from a position on, which may be the end of the frame. -/
def bytesFrom (frame : Bytes) (i : Nat) : Positional Bytes :=
  ExceptT.lift (if i ≤ frame.length then some (frame.drop i) else none)

def wordAt (frame : Bytes) (i : Nat) : Positional UInt32 := do
  return wordOfBytes (← byteAt frame i) (← byteAt frame (i + 1)) (← byteAt frame (i + 2))
    (← byteAt frame (i + 3))

def nodeAt (tag : Tag) (frame : Bytes) (i : Nat) : Positional Address := do
  liftExcept (node tag (← byteAt frame i))

def atLeast (tag : Tag) (frame : Bytes) (needed : Nat) : Positional Unit :=
  if frame.length < needed then throw (.truncated tag needed frame.length) else pure ()

def exactly (tag : Tag) (frame : Bytes) (length : Nat) : Positional Unit := do
  atLeast tag frame length
  if length < frame.length then throw (.trailing tag (frame.length - length)) else pure ()

def payloadAt (tag : Tag) (build : UInt32 → Bytes → Message) (frame : Bytes) :
    Positional Message := do
  atLeast tag frame 5
  return build (← wordAt frame 1) (← bytesFrom frame 5)

def turnAt (frame : Bytes) : Positional Message := do
  exactly .turn frame 10
  let target ← nodeAt .turn frame 1
  return turn target (.ofWord (← wordAt frame 2)) (← wordAt frame 6)

def joinRequestAt (frame : Bytes) : Positional Message := do
  exactly .joinRequest frame 2
  return joinRequest (← nodeAt .joinRequest frame 1)

def joinAckAt (frame : Bytes) : Positional Message := do
  atLeast .joinAck frame 12
  let count ← byteAt frame 11
  exactly .joinAck frame (12 + count.toNat)
  let members ← liftExcept ((← bytesFrom frame 12).mapM (node .joinAck))
  let target ← nodeAt .joinAck frame 1
  return joinAck target (.ofWord (← wordAt frame 2)) (← wordAt frame 6)
    ((← byteAt frame 10) &&& 1 ≠ 0) members

/-- Reads a frame by positions, after the checks of its length. -/
def byPosition (frame : Bytes) : Positional Message := do
  if frame.isEmpty then throw .empty
  let first ← byteAt frame 0
  match Tag.ofByte? first with
  | none => throw (.unknownTag first)
  | some .data => payloadAt .data data frame
  | some .retry => payloadAt .retry retry frame
  | some .ack => return ack (← bytesFrom frame 1)
  | some .turn => turnAt frame
  | some .joinRequest => joinRequestAt frame
  | some .joinAck => joinAckAt frame

section Positional

variable {β γ : Type} {length : Nat}

/-- A failure of the message itself is passed on; a position past the end cannot come from it. -/
theorem run_bind_liftExcept {r : Except FrameError β} {f : β → Positional γ}
    {g : β → Except FrameError γ} (h : ∀ b, (f b).run = some (g b)) :
    (liftExcept r >>= f).run = some (r >>= g) := by
  cases r with
  | error e => rfl
  | ok b => exact h b

theorem atLeast_of_le (h : length ≤ frame.length) : atLeast tag frame length = pure () :=
  if_neg (Nat.not_lt.2 h)

/-- The check of a length that is not reached ends the reading. -/
theorem run_atLeast_of_lt {f : Unit → Positional γ} (h : frame.length < length) :
    (atLeast tag frame length >>= f).run =
      some (.error (.truncated tag length frame.length)) := by
  rw [atLeast, if_pos h]
  rfl

theorem exactly_of_eq (h : frame.length = length) : exactly tag frame length = pure () := by
  rw [exactly, atLeast_of_le (Nat.le_of_eq h.symm), if_neg (Nat.not_lt.2 (Nat.le_of_eq h))]
  rfl

/-- The check of an exact length ends the reading, too early or too late. -/
theorem run_exactly_of_ne {f : Unit → Positional γ} (h : frame.length ≠ length) :
    (exactly tag frame length >>= f).run =
      some (.error (tag.misfit length frame.length)) := by
  rcases Nat.lt_or_gt_of_ne h with hlt | hgt
  · rw [Tag.misfit, if_pos hlt, exactly, bind_assoc, run_atLeast_of_lt hlt]
  · rw [Tag.misfit, if_neg (Nat.lt_asymm hgt), exactly, atLeast_of_le (Nat.le_of_lt hgt),
      if_pos hgt]
    rfl

end Positional

/-- **Read by positions, a payload is what it is to the reader**; no position is past its end. -/
theorem run_payloadAt (tag : Tag) (build : UInt32 → Bytes → Message) (first : UInt8)
    (rest : Bytes) :
    (payloadAt tag build (first :: rest)).run = some (decodePayload tag build rest) := by
  rcases rest with _ | ⟨a, _ | ⟨b, _ | ⟨c, _ | ⟨d, body⟩⟩⟩⟩ <;> rfl

theorem run_turnAt (first : UInt8) (rest : Bytes) :
    (turnAt (first :: rest)).run = some (decodeTurn rest) := by
  by_cases h : rest.length = 9
  · obtain ⟨target, s₀, s₁, s₂, s₃, r₀, r₁, r₂, r₃, rfl⟩ := eq_of_length_turn h
    exact run_bind_liftExcept (r := node .turn target) fun _ => rfl
  · have hne : rest.length + 1 ≠ 10 := fun he => h (Nat.succ.inj he)
    rw [decodeTurn_of_length hne]
    exact run_exactly_of_ne hne

theorem run_joinRequestAt (first : UInt8) (rest : Bytes) :
    (joinRequestAt (first :: rest)).run = some (decodeJoinRequest rest) := by
  rcases rest with _ | ⟨joiner, _ | ⟨next, more⟩⟩
  · rfl
  · exact run_bind_liftExcept (r := node .joinRequest joiner) fun _ => rfl
  · rfl

theorem run_joinAckAt (first : UInt8) (rest : Bytes) :
    (joinAckAt (first :: rest)).run = some (decodeJoinAck rest) := by
  by_cases hshort : rest.length + 1 < 12
  · rw [decodeJoinAck_of_short hshort]
    exact run_atLeast_of_lt hshort
  · obtain ⟨target, s₀, s₁, s₂, s₃, r₀, r₁, r₂, r₃, flags, count, members, rfl⟩ :=
      eq_of_length_joinAck (by omega : 11 ≤ rest.length)
    rw [joinAckAt, atLeast_of_le (Nat.not_lt.1 hshort)]
    by_cases h : members.length + 12 = 12 + count.toNat
    · have hcount : members.length = count.toNat := by omega
      have hexact : exactly .joinAck (first :: target :: s₀ :: s₁ :: s₂ :: s₃ :: r₀ :: r₁ :: r₂ ::
        r₃ :: flags :: count :: members) (12 + count.toNat) = pure () := exactly_of_eq h
      change ((exactly .joinAck _ _ >>= _ : Positional Message)).run = _
      rw [hexact, decodeJoinAck, hcount, if_neg (Nat.lt_irrefl _), if_neg (Nat.lt_irrefl _)]
      exact run_bind_liftExcept (r := members.mapM (node .joinAck)) fun _ =>
        run_bind_liftExcept (r := node .joinAck target) fun _ => rfl
    · rw [decodeJoinAck_of_length h]
      exact run_exactly_of_ne h

/-- **Reading by position always comes to a result**, the one of the reader. -/
theorem run_byPosition (frame : Bytes) : (byPosition frame).run = some (decode frame) := by
  cases frame with
  | nil => rfl
  | cons first rest =>
    change (do
      match Tag.ofByte? first with
      | none => throw (.unknownTag first)
      | some .data => payloadAt .data data (first :: rest)
      | some .retry => payloadAt .retry retry (first :: rest)
      | some .ack => return ack (← bytesFrom (first :: rest) 1)
      | some .turn => turnAt (first :: rest)
      | some .joinRequest => joinRequestAt (first :: rest)
      | some .joinAck => joinAckAt (first :: rest) : Positional Message).run = _
    rw [decode, decodeTag]
    cases Tag.ofByte? first with
    | none => rfl
    | some kind =>
      cases kind with
      | data => exact run_payloadAt .data data first rest
      | retry => exact run_payloadAt .retry retry first rest
      | ack => rfl
      | turn => exact run_turnAt first rest
      | joinRequest => exact run_joinRequestAt first rest
      | joinAck => exact run_joinAckAt first rest

/-! ## The reader and the grammar -/

/-- A byte is no node only if it stands for everyone. -/
theorem of_node_error {byte : UInt8} (h : node tag byte = .error e) :
    e = .namesEveryone tag ∧ byte = Address.everyone.byte := by
  unfold node at h
  split at h
  · exact ⟨(Except.error.inj h).symm, ‹_›⟩
  · exact absurd h nofun

/-- A reader of one address fails as the address does. -/
theorem of_node_bind_error {byte : UInt8} {build : Address → Message}
    (h : (do return build (← node tag byte)) = Except.error e) :
    e = .namesEveryone tag ∧ byte = Address.everyone.byte := by
  cases hnode : node tag byte with
  | ok a =>
    rw [hnode] at h
    cases h
  | error e' =>
    rw [hnode] at h
    obtain rfl := Except.error.inj h
    exact of_node_error hnode

/-- A list of bytes names no nodes only if one of them stands for everyone. -/
theorem of_mapM_node_error {bytes : Bytes} (h : bytes.mapM (node tag) = .error e) :
    e = .namesEveryone tag ∧ Address.everyone.byte ∈ bytes := by
  induction bytes with
  | nil => exact absurd h nofun
  | cons b bytes ih =>
    rw [List.mapM_cons] at h
    cases hb : node tag b with
    | error e' =>
      obtain ⟨rfl, rfl⟩ := of_node_error hb
      rw [hb] at h
      exact ⟨(Except.error.inj h).symm, List.mem_cons_self⟩
    | ok a =>
      cases hrest : bytes.mapM (node tag) with
      | error e' =>
        rw [hb, hrest] at h
        obtain rfl := Except.error.inj h
        exact (ih hrest).imp id (List.mem_cons_of_mem _)
      | ok rest =>
        rw [hb, hrest] at h
        exact absurd h nofun

/-- The error of a payload is its first broken rule. -/
theorem firstBroken_of_decodePayload {build : UInt32 → Bytes → Message} {rest : Bytes}
    (hneeded : tag.needed (tag.byte :: rest) = 5) (h : decodePayload tag build rest = .error e) :
    FirstBroken (tag.byte :: rest) e := by
  by_cases hshort : rest.length + 1 < 5
  · obtain rfl := Except.error.inj ((decodePayload_of_length hshort).symm.trans h)
    exact hneeded ▸ firstBroken_truncated tag rfl (hneeded ▸ hshort)
  · obtain ⟨a, b, c, d, body, rfl⟩ := eq_of_length_payload (by omega : 4 ≤ rest.length)
    exact absurd h nofun

theorem firstBroken_of_decodeTurn {rest : Bytes} (h : decodeTurn rest = .error e) :
    FirstBroken (Tag.turn.byte :: rest) e := by
  by_cases hlength : rest.length + 1 = 10
  · obtain ⟨target, s₀, s₁, s₂, s₃, r₀, r₁, r₂, r₃, rfl⟩ :=
      eq_of_length_turn (Nat.succ.inj hlength)
    rw [decodeTurn] at h
    obtain ⟨rfl, rfl⟩ := of_node_bind_error h
    exact firstBroken_namesEveryone .turn rfl hlength List.mem_cons_self
  · obtain rfl := Except.error.inj ((decodeTurn_of_length hlength).symm.trans h)
    exact firstBroken_misfit .turn rfl rfl hlength

theorem firstBroken_of_decodeJoinRequest {rest : Bytes} (h : decodeJoinRequest rest = .error e) :
    FirstBroken (Tag.joinRequest.byte :: rest) e := by
  by_cases hlength : rest.length + 1 = 2
  · obtain ⟨joiner, rfl⟩ := List.length_eq_one_iff.1 (Nat.succ.inj hlength)
    rw [decodeJoinRequest] at h
    obtain ⟨rfl, rfl⟩ := of_node_bind_error h
    exact firstBroken_namesEveryone .joinRequest rfl hlength List.mem_cons_self
  · obtain rfl := Except.error.inj ((decodeJoinRequest_of_length hlength).symm.trans h)
    exact firstBroken_misfit .joinRequest rfl rfl hlength

/-- The error of an admission is its first broken rule: its length against the fixed part first,
then against its count, and last the nodes it names. -/
theorem firstBroken_of_decodeJoinAck {rest : Bytes} (h : decodeJoinAck rest = .error e) :
    FirstBroken (Tag.joinAck.byte :: rest) e := by
  by_cases hshort : rest.length + 1 < 12
  · -- The frame ends before its count.
    have hneeded : Tag.joinAck.needed (Tag.joinAck.byte :: rest) = 12 := by
      have hcount : (Tag.joinAck.byte :: rest)[11]? = none :=
        List.getElem?_eq_none (Nat.le_of_lt_succ hshort)
      simp only [Tag.needed, hcount]
    obtain rfl := Except.error.inj ((decodeJoinAck_of_short hshort).symm.trans h)
    exact hneeded ▸ firstBroken_truncated .joinAck rfl (hneeded ▸ hshort)
  · obtain ⟨target, s₀, s₁, s₂, s₃, r₀, r₁, r₂, r₃, flags, count, members, rfl⟩ :=
      eq_of_length_joinAck (by omega : 11 ≤ rest.length)
    by_cases hlength : members.length + 12 = 12 + count.toNat
    · have hcount : members.length = count.toNat := by omega
      rw [decodeJoinAck, hcount, if_neg (Nat.lt_irrefl _), if_neg (Nat.lt_irrefl _)] at h
      have named (hnamed : Address.everyone.byte ∈ [target] ++ members) :
          FirstBroken (Tag.joinAck.byte :: target :: s₀ :: s₁ :: s₂ :: s₃ :: r₀ :: r₁ :: r₂ ::
            r₃ :: flags :: count :: members) (.namesEveryone .joinAck) :=
        firstBroken_namesEveryone .joinAck rfl hlength hnamed
      cases hmembers : members.mapM (node .joinAck) with
      | error e' =>
        rw [hmembers] at h
        obtain rfl := Except.error.inj h
        obtain ⟨rfl, hmem⟩ := of_mapM_node_error hmembers
        exact named (List.mem_append_right _ hmem)
      | ok nodes =>
        rw [hmembers] at h
        obtain ⟨rfl, rfl⟩ := of_node_bind_error h
        exact named (List.mem_append_left _ (List.mem_singleton_self _))
    · obtain rfl := Except.error.inj ((decodeJoinAck_of_length hlength).symm.trans h)
      exact firstBroken_misfit .joinAck rfl rfl hlength

/-- **The reader blames the first broken rule.** -/
theorem firstBroken_of_decode (h : decode frame = .error e) : FirstBroken frame e := by
  cases frame with
  | nil =>
    obtain rfl := Except.error.inj h
    exact ⟨.empty rfl, fun _ _ => Nat.zero_le _⟩
  | cons first rest =>
    rw [decode, decodeTag] at h
    cases hkind : Tag.ofByte? first with
    | none =>
      rw [hkind] at h
      obtain rfl := Except.error.inj h
      have unknown (tag : Tag) : tag.byte ≠ first := by
        rintro rfl
        exact Option.some_ne_none _ ((Tag.ofByte?_byte tag).symm.trans hkind)
      refine ⟨.unknownTag rfl unknown, fun e' h' => ?_⟩
      cases h' with
      | empty nothing => exact absurd nothing (List.cons_ne_nil _ _)
      | _ => simp [FrameError.rank]
    | some kind =>
      rw [hkind] at h
      obtain rfl := Tag.ofByte?_eq_some_iff.1 hkind
      cases kind with
      | data => exact firstBroken_of_decodePayload rfl h
      | retry => exact firstBroken_of_decodePayload rfl h
      | ack => cases h
      | turn => exact firstBroken_of_decodeTurn h
      | joinRequest => exact firstBroken_of_decodeJoinRequest h
      | joinAck => exact firstBroken_of_decodeJoinAck h

/-- **Whatever is read is of the grammar.** -/
theorem grammatical_of_decode {m : Message} (h : decode frame = .ok m) : Grammatical frame := by
  have single {a : Address} (ha : a ≠ .everyone) : some a.byte ≠ some 255 := fun he =>
    ha (congrArg Address.mk (Option.some.inj he))
  obtain ⟨kind, rest, rfl, h⟩ := of_decode h
  cases kind with
  | data =>
    obtain ⟨round, body, rfl, -⟩ := of_decodePayload h
    exact .payload (Or.inl rfl) (by simp [wordBytes])
  | retry =>
    obtain ⟨round, body, rfl, -⟩ := of_decodePayload h
    exact .payload (Or.inr rfl) (by simp [wordBytes])
  | ack => exact .ack rfl
  | turn =>
    obtain ⟨target, word, round, hsingle, rfl, -⟩ := of_decodeTurn h
    exact .turn rfl rfl (single hsingle)
  | joinRequest =>
    obtain ⟨joiner, hsingle, rfl, -⟩ := of_decodeJoinRequest h
    exact .joinRequest rfl rfl (single hsingle)
  | joinAck =>
    obtain ⟨target, word, round, flags, members, hsingle, hnodes, hcount, rfl, -⟩ :=
      of_decodeJoinAck h
    have hlength : members.length.toUInt8.toNat = members.length := by
      simp only [Nat.toUInt8, UInt8.toNat_ofNat']
      omega
    refine .joinAck rfl ?_ rfl ?_ (single hsingle) fun hmem => ?_
    · simp [wordBytes]
    · rw [hlength]
      simp [wordBytes]
      omega
    · obtain ⟨a, ha, hbyte⟩ := List.mem_map.1 hmem
      exact hnodes a ha (congrArg Address.mk hbyte)

end Message

/-- **What is a message, and what is wrong with everything else.**  For every string of bytes: read
by position, with nothing but its length to go by, it never asks for a byte that is not there, and
the result is that of the reader; it is read as a message exactly if it is of the grammar; and it is
refused with an error exactly if that is the error of the first rule that it breaks. -/
theorem frame_grammar (frame : Bytes) :
    (Message.byPosition frame).run = some (Message.decode frame) ∧
    ((∃ m, Message.decode frame = .ok m) ↔ Message.Grammatical frame) ∧
    ∀ e, Message.decode frame = .error e ↔ Message.FirstBroken frame e := by
  refine ⟨Message.run_byPosition frame,
    ⟨fun ⟨m, h⟩ => Message.grammatical_of_decode h, fun h => ?_⟩,
    fun e => ⟨Message.firstBroken_of_decode, fun h => ?_⟩⟩
  · cases hread : Message.decode frame with
    | ok m => exact ⟨m, rfl⟩
    | error e => exact absurd (Message.firstBroken_of_decode hread).breaks h.not_breaks
  · cases hread : Message.decode frame with
    | ok m => exact absurd h.breaks (Message.grammatical_of_decode hread).not_breaks
    | error e' => rw [(Message.firstBroken_of_decode hread).unique h]

end RadioRing
