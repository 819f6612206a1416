import RadioRing.Message.Codec

/-!
# Proofs/RoundTrip — a well-formed message is read back from its frame

`Message.WellFormed` says what a frame can carry: single nodes where nodes are named, a session that
is one, and no more members than a byte counts.  **Reading undoes writing** (`decode_encode`), so
two well-formed messages with one frame are one message (`encode_inj`).  What is read stands in its
frame field by field (`of_decodeTurn` and its like), so nothing else is ever read
(`wellFormed_of_decode`).
-/

namespace RadioRing

/-! ## Words -/

/-- The bytes of a word, lowest first, make up that word. -/
theorem wordOfBytes_bytes (w : UInt32) :
    wordOfBytes w.toUInt8 (w >>> 8).toUInt8 (w >>> 16).toUInt8 (w >>> 24).toUInt8 = w := by
  apply UInt32.toBitVec_inj.1
  simp only [wordOfBytes, UInt32.toBitVec_or, UInt32.toBitVec_shiftLeft, UInt8.toBitVec_toUInt32,
    UInt32.toBitVec_toUInt8, UInt32.toBitVec_shiftRight]
  refine BitVec.eq_of_getLsbD_eq fun i hi => ?_
  simp
  grind

/-- Four bytes are those of the word they make up. -/
theorem wordBytes_wordOfBytes (a b c d : UInt8) :
    wordBytes (wordOfBytes a b c d) = [a, b, c, d] := by
  have hbits {x y : UInt8} (h : ∀ i, i < 8 → x.toBitVec.getLsbD i = y.toBitVec.getLsbD i) :
      x = y := UInt8.toBitVec_inj.1 (BitVec.eq_of_getLsbD_eq h)
  simp only [wordBytes, List.cons.injEq, and_true]
  refine ⟨hbits fun i hi => ?_, hbits fun i hi => ?_, hbits fun i hi => ?_, hbits fun i hi => ?_⟩
  all_goals simp [wordOfBytes, hi]
  all_goals grind

/-- Words with the same bytes are equal. -/
theorem wordBytes_inj {w w' : UInt32} (h : wordBytes w = wordBytes w') : w = w' := by
  simp only [wordBytes, List.cons.injEq, and_true] at h
  obtain ⟨h₀, h₁, h₂, h₃⟩ := h
  rw [← wordOfBytes_bytes w, h₀, h₁, h₂, h₃, wordOfBytes_bytes]

namespace Message

/-! ## Messages that a frame can carry -/

/-- Every address that the message names is one of a single node. -/
def NamesNodes : Message → Prop
  | data .. | retry .. | ack _ => True
  | turn target _ _ => target ≠ .everyone
  | joinRequest joiner => joiner ≠ .everyone
  | joinAck target _ _ _ members => target ≠ .everyone ∧ ∀ a ∈ members, a ≠ .everyone

/-- The session of the message, if it has one, is not the word that names no network. -/
def NamesNetwork : Message → Prop
  | turn _ session _ | joinAck _ session _ _ _ => session.word ≠ 0
  | _ => True

/-- What can be said in one frame and understood. -/
structure WellFormed (m : Message) : Prop where
  nodes : m.NamesNodes
  network : m.NamesNetwork
  /-- The count of the members fits into its byte. -/
  counted : ∀ {target session round handsOver members},
    m = joinAck target session round handsOver members → members.length ≤ 255

theorem wellFormed_data (round : UInt32) (body : Bytes) : (data round body).WellFormed :=
  ⟨trivial, trivial, nofun⟩

theorem wellFormed_retry (round : UInt32) (body : Bytes) : (retry round body).WellFormed :=
  ⟨trivial, trivial, nofun⟩

theorem wellFormed_ack (echo : Bytes) : (ack echo).WellFormed := ⟨trivial, trivial, nofun⟩

/-- A message that names neither a node nor a network is well-formed. -/
theorem wellFormed_of_tag {m : Message} (plain : m.tag = .data ∨ m.tag = .retry ∨ m.tag = .ack) :
    m.WellFormed := by
  cases m with
  | data round body => exact wellFormed_data round body
  | retry round body => exact wellFormed_retry round body
  | ack echo => exact wellFormed_ack echo
  | _ => simp [tag] at plain

/-- An offer is well formed if it is for a single node and its session has a name. -/
theorem wellFormed_turn {target : Address} {session : Session} {round : UInt32}
    (ht : target ≠ .everyone) (hs : session.word ≠ 0) : (turn target session round).WellFormed :=
  ⟨ht, hs, nofun⟩

/-! ## Reading undoes writing -/

theorem node_byte (tag : Tag) {a : Address} (h : a ≠ .everyone) : node tag a.byte = .ok a := by
  have hb : a.byte ≠ Address.everyone.byte := fun e =>
    h (Address.ext_toNat (congrArg UInt8.toNat e))
  simp [node, hb]

/-- Single nodes are read back from their bytes, in order. -/
theorem mapM_node (tag : Tag) : ∀ {members : List Address}, (∀ a ∈ members, a ≠ .everyone) →
    (members.map Address.byte).mapM (node tag) = .ok members
  | [], _ => rfl
  | a :: rest, h => by
    have ih := mapM_node tag fun b hb => h b (List.mem_cons_of_mem _ hb)
    rw [List.map_cons, List.mapM_cons, node_byte tag (h a List.mem_cons_self), ih]
    rfl

/-- A payload is read back as it was written, whatever its body. -/
theorem decodePayload_fields (tag : Tag) (build : UInt32 → Bytes → Message) (round : UInt32)
    (body : Bytes) :
    decodePayload tag build (wordBytes round ++ body) = .ok (build round body) := by
  simp [decodePayload, wordBytes, wordOfBytes_bytes]

/-- A well-formed offer is read back as it was written. -/
theorem decodeTurn_fields {target : Address} {session : Session} {round : UInt32}
    (ht : target ≠ .everyone) (hs : session.word ≠ 0) :
    decodeTurn (turn target session round).fields = .ok (turn target session round) := by
  simp only [fields, wordBytes, List.cons_append, List.nil_append, decodeTurn, node_byte _ ht,
    wordOfBytes_bytes, Session.ofWord_word hs]
  rfl

/-- A well-formed admission is read back as it was written, members and flag included. -/
theorem decodeJoinAck_fields {target : Address} {session : Session} {round : UInt32}
    {handsOver : Bool} {members : List Address} (ht : target ≠ .everyone) (hs : session.word ≠ 0)
    (hm : ∀ a ∈ members, a ≠ .everyone) (hc : members.length ≤ 255) :
    decodeJoinAck (joinAck target session round handsOver members).fields =
      .ok (joinAck target session round handsOver members) := by
  have hcount : members.length.toUInt8.toNat = members.length := by
    simp only [Nat.toUInt8, UInt8.toNat_ofNat']
    omega
  simp only [fields, wordBytes, List.cons_append, List.nil_append, decodeJoinAck, List.length_map,
    hcount, Nat.lt_irrefl, if_false, node_byte _ ht, mapM_node _ hm, wordOfBytes_bytes,
    Session.ofWord_word hs]
  cases handsOver <;> rfl

/-- **Reading a written message gives the message back.** -/
theorem decode_encode {m : Message} (h : m.WellFormed) : decode m.encode = .ok m := by
  have htag : decodeTag m.tag.byte = .ok m.tag := by simp [decodeTag]
  suffices hf : decodeFields m.tag m.fields = .ok m by
    simp only [encode, decode, htag]
    exact hf
  cases m with
  | data round body => exact decodePayload_fields .data data round body
  | retry round body => exact decodePayload_fields .retry retry round body
  | ack echo => rfl
  | turn target session round => exact decodeTurn_fields h.nodes h.network
  | joinRequest joiner =>
    simp only [tag, fields, decodeFields, decodeJoinRequest, node_byte _ h.nodes]
    rfl
  | joinAck target session round handsOver members =>
    exact decodeJoinAck_fields h.nodes.1 h.network h.nodes.2 (h.counted rfl)

/-- Two well-formed messages with the same frame are the same. -/
theorem encode_inj {m m' : Message} (h : m.WellFormed) (h' : m'.WellFormed)
    (he : m.encode = m'.encode) : m = m' := by
  have hd : Except.ok (ε := FrameError) m = .ok m' :=
    (decode_encode h).symm.trans ((congrArg decode he).trans (decode_encode h'))
  exact Except.ok.inj hd

/-! ## What is read stands in its frame

Each kind of frame is its fields in a row, so that a frame that is read is known byte by byte from
what it is read as. -/

/-- A byte that names a node is the byte of that node. -/
theorem of_node {tag : Tag} {byte : UInt8} {a : Address} (h : node tag byte = .ok a) :
    byte = a.byte ∧ a ≠ .everyone := by
  unfold node at h
  split at h
  · exact absurd h nofun
  · rename_i hb
    obtain rfl := Except.ok.inj h
    exact ⟨rfl, fun e => hb (congrArg Address.byte e)⟩

/-- Bytes that name nodes are the bytes of those nodes, in order. -/
theorem of_mapM_node {tag : Tag} : ∀ {bytes : Bytes} {members : List Address},
    bytes.mapM (node tag) = .ok members →
      bytes = members.map Address.byte ∧ ∀ a ∈ members, a ≠ .everyone
  | [], members, h => by
    obtain rfl := Except.ok.inj h
    exact ⟨rfl, nofun⟩
  | b :: bytes, members, h => by
    rw [List.mapM_cons] at h
    simp only [bind, Except.bind] at h
    split at h
    · exact absurd h nofun
    · rename_i a ha
      split at h
      · exact absurd h nofun
      · rename_i rest hrest
        obtain rfl := Except.ok.inj h
        obtain ⟨rfl, hsingle⟩ := of_node ha
        obtain ⟨rfl, hnodes⟩ := of_mapM_node hrest
        exact ⟨rfl, List.forall_mem_cons.2 ⟨hsingle, hnodes⟩⟩

/-- A payload that is read is a round and then its body. -/
theorem of_decodePayload {tag : Tag} {build : UInt32 → Bytes → Message} {bytes : Bytes}
    {m : Message} (h : decodePayload tag build bytes = .ok m) :
    ∃ round body, bytes = wordBytes round ++ body ∧ m = build round body := by
  unfold decodePayload at h
  split at h
  · rename_i a b c d body
    exact ⟨wordOfBytes a b c d, body, by rw [wordBytes_wordOfBytes]; rfl, (Except.ok.inj h).symm⟩
  · exact absurd h nofun

/-- An offer that is read is an address, a session and a round; a session without a name is given
one. -/
theorem of_decodeTurn {bytes : Bytes} {m : Message} (h : decodeTurn bytes = .ok m) :
    ∃ target word round, target ≠ .everyone ∧
      bytes = target.byte :: (wordBytes word ++ wordBytes round) ∧
      m = turn target (.ofWord word) round := by
  unfold decodeTurn at h
  split at h
  · rename_i byte s₀ s₁ s₂ s₃ r₀ r₁ r₂ r₃
    simp only [bind, Except.bind] at h
    split at h
    · exact absurd h nofun
    · rename_i target htarget
      obtain ⟨rfl, hsingle⟩ := of_node htarget
      refine ⟨target, wordOfBytes s₀ s₁ s₂ s₃, wordOfBytes r₀ r₁ r₂ r₃, hsingle, ?_,
        (Except.ok.inj h).symm⟩
      rw [wordBytes_wordOfBytes, wordBytes_wordOfBytes]
      rfl
  · split at h <;> exact absurd h nofun

theorem of_decodeJoinRequest {bytes : Bytes} {m : Message} (h : decodeJoinRequest bytes = .ok m) :
    ∃ joiner, joiner ≠ .everyone ∧ bytes = [joiner.byte] ∧ m = joinRequest joiner := by
  unfold decodeJoinRequest at h
  split at h
  · simp only [bind, Except.bind] at h
    split at h
    · exact absurd h nofun
    · rename_i joiner hjoiner
      obtain ⟨rfl, hsingle⟩ := of_node hjoiner
      exact ⟨joiner, hsingle, rfl, (Except.ok.inj h).symm⟩
  · split at h <;> exact absurd h nofun

/-- An admission that is read has as many members as it counts; of its flags only the lowest bit is
looked at. -/
theorem of_decodeJoinAck {bytes : Bytes} {m : Message} (h : decodeJoinAck bytes = .ok m) :
    ∃ target word round flags members, target ≠ .everyone ∧ (∀ a ∈ members, a ≠ .everyone) ∧
      members.length ≤ 255 ∧
      bytes = target.byte :: (wordBytes word ++ (wordBytes round ++
        (flags :: members.length.toUInt8 :: members.map Address.byte))) ∧
      m = joinAck target (.ofWord word) round (flags &&& 1 ≠ 0) members := by
  unfold decodeJoinAck at h
  split at h
  · rename_i byte s₀ s₁ s₂ s₃ r₀ r₁ r₂ r₃ flags count bytes
    split at h
    · exact absurd h nofun
    · rename_i hshort
      split at h
      · exact absurd h nofun
      · rename_i hlong
        simp only [bind, Except.bind] at h
        split at h
        · exact absurd h nofun
        · rename_i members hmembers
          split at h
          · exact absurd h nofun
          · rename_i target htarget
            obtain ⟨rfl, hsingle⟩ := of_node htarget
            obtain ⟨rfl, hnodes⟩ := of_mapM_node hmembers
            rw [List.length_map] at hshort hlong
            have hlength : members.length = count.toNat :=
              Nat.le_antisymm (Nat.not_lt.1 hlong) (Nat.not_lt.1 hshort)
            have hcount : members.length.toUInt8 = count := by
              rw [hlength]
              exact UInt8.ofNat_toNat
            refine ⟨target, wordOfBytes s₀ s₁ s₂ s₃, wordOfBytes r₀ r₁ r₂ r₃, flags, members,
              hsingle, hnodes, ?_, ?_, (Except.ok.inj h).symm⟩
            · exact hlength ▸ Nat.le_of_lt_succ count.toNat_lt
            · rw [wordBytes_wordOfBytes, wordBytes_wordOfBytes, hcount]
              rfl
  · exact absurd h nofun

/-- A frame that is read starts with the byte of its kind. -/
theorem of_decode {frame : Bytes} {m : Message} (h : decode frame = .ok m) :
    ∃ (kind : Tag) (rest : Bytes), frame = kind.byte :: rest ∧ decodeFields kind rest = .ok m := by
  cases frame with
  | nil => exact absurd h nofun
  | cons first rest =>
    simp only [decode, bind, Except.bind, decodeTag] at h
    cases hfirst : Tag.ofByte? first with
    | none =>
      rw [hfirst] at h
      exact absurd h nofun
    | some kind =>
      rw [hfirst] at h
      exact ⟨kind, rest, by rw [Tag.ofByte?_eq_some_iff.1 hfirst], h⟩

/-- A message is of the kind that its fields are read for, and well-formed. -/
theorem of_decodeFields {kind : Tag} {bytes : Bytes} {m : Message}
    (h : decodeFields kind bytes = .ok m) : m.tag = kind ∧ m.WellFormed := by
  cases kind with
  | data =>
    obtain ⟨round, body, -, rfl⟩ := of_decodePayload h
    exact ⟨rfl, wellFormed_data round body⟩
  | retry =>
    obtain ⟨round, body, -, rfl⟩ := of_decodePayload h
    exact ⟨rfl, wellFormed_retry round body⟩
  | ack =>
    obtain rfl := Except.ok.inj h
    exact ⟨rfl, wellFormed_ack bytes⟩
  | turn =>
    obtain ⟨target, word, round, hsingle, -, rfl⟩ := of_decodeTurn h
    exact ⟨rfl, wellFormed_turn hsingle (Session.ofWord_ne_zero word)⟩
  | joinRequest =>
    obtain ⟨joiner, hsingle, -, rfl⟩ := of_decodeJoinRequest h
    exact ⟨rfl, hsingle, trivial, nofun⟩
  | joinAck =>
    obtain ⟨target, word, round, flags, members, hsingle, hnodes, hcount, -, rfl⟩ :=
      of_decodeJoinAck h
    exact ⟨rfl, ⟨hsingle, hnodes⟩, Session.ofWord_ne_zero word, fun he =>
      (Message.joinAck.inj he).2.2.2.2 ▸ hcount⟩

/-- **Only well-formed messages are read.** -/
theorem wellFormed_of_decode {bytes : Bytes} {m : Message} (h : decode bytes = .ok m) :
    m.WellFormed := by
  obtain ⟨kind, rest, -, h⟩ := of_decode h
  exact (of_decodeFields h).2

/-! ## What the first byte tells -/

/-- The first byte of a frame tells its kind. -/
theorem tag_eq_of_encode_eq {m m' : Message} (h : m.encode = m'.encode) : m.tag = m'.tag := by
  have hb : m.tag.byte = m'.tag.byte := (List.cons.inj h).1
  have ht := congrArg Tag.ofByte? hb
  simpa using ht

/-- **A payload or an acknowledgement that is read is the message that was written**, whatever else
could be written. -/
theorem eq_of_decode_encode {m m' : Message} (h : decode m.encode = .ok m')
    (plain : m'.tag = .data ∨ m'.tag = .retry ∨ m'.tag = .ack) : m = m' := by
  have htag : decodeTag m.tag.byte = .ok m.tag := by simp [decodeTag]
  have hfields : decodeFields m.tag m.fields = .ok m' := by
    simp only [encode, decode, htag] at h
    exact h
  rw [(of_decodeFields hfields).1] at plain
  exact Except.ok.inj ((decode_encode (wellFormed_of_tag plain)).symm.trans h)

/-- Equal frames are offers of one token to one node, whether or not they can be read. -/
theorem encode_turn_inj {target target' : Address} {session session' : Session}
    {round round' : UInt32} (h : (turn target session round).encode =
      (turn target' session' round').encode) :
    target = target' ∧ session = session' ∧ round = round' := by
  obtain ⟨htarget, hwords⟩ := List.cons.inj (List.cons.inj h).2
  obtain ⟨hsession, hround⟩ := List.append_inj hwords rfl
  refine ⟨?_, ?_, wordBytes_inj hround⟩
  · cases target
    cases target'
    exact congrArg _ htarget
  · cases session
    cases session'
    exact congrArg _ (wordBytes_inj hsession)

/-- Equal frames tell the same round of a network, whether or not they can be read. -/
theorem round_eq_of_encode_joinAck {target target' : Address} {session session' : Session}
    {round round' : UInt32} {handsOver handsOver' : Bool} {members members' : List Address}
    (h : (joinAck target session round handsOver members).encode =
      (joinAck target' session' round' handsOver' members').encode) : round = round' := by
  obtain ⟨-, hwords⟩ := List.cons.inj (List.cons.inj h).2
  obtain ⟨-, hrest⟩ := List.append_inj hwords rfl
  exact wordBytes_inj (List.append_inj hrest rfl).1

end Message

end RadioRing
