import RadioRing.Proofs.RoundTrip

/-!
# Proofs/CanonicalFrames — the one frame that a message is written as

Reading undoes writing, and writing nearly undoes reading: a frame that is read and written again
comes back byte for byte, **but for the two places where the reader looks away**.  A session word of
zero is read as one, and of the flags of an admission only the lowest bit counts.
`Message.canonical` makes these two changes at their places, whatever the rest of the frame is, and
`encode_of_decode` says that writing makes no others.
-/

namespace RadioRing

namespace Message

/-! ## What writing changes -/

/-- The frame with a session word of zero, which stands behind the tag and the target, made one. -/
def withNetwork (frame : Bytes) : Bytes :=
  if (frame.drop 2).take 4 = [0, 0, 0, 0] then frame.set 2 1 else frame

/-- A frame as it would be written: an offer of the token and an admission name a network, and the
flags of an admission have no bit but the lowest one. -/
def canonical (frame : Bytes) : Bytes :=
  match frame.head?.bind Tag.ofByte? with
  | some .turn => withNetwork frame
  | some .joinAck => (withNetwork frame).modify 10 (· &&& 1)
  | _ => frame

theorem length_withNetwork (frame : Bytes) : (withNetwork frame).length = frame.length := by
  unfold withNetwork
  split <;> simp

/-- The canonical form of a frame is as long as the frame. -/
theorem length_canonical (frame : Bytes) : (canonical frame).length = frame.length := by
  unfold canonical
  split <;> simp [length_withNetwork]

theorem withNetwork_eq (tag target : UInt8) (word : UInt32) (rest : Bytes) :
    withNetwork (tag :: target :: (wordBytes word ++ rest)) =
      tag :: target :: (wordBytes (Session.ofWord word).word ++ rest) := by
  have hword : ((tag :: target :: (wordBytes word ++ rest)).drop 2).take 4 = wordBytes word := rfl
  unfold withNetwork
  rw [hword]
  by_cases hzero : word = 0
  · subst hzero
    rfl
  · have hne : wordBytes word ≠ [0, 0, 0, 0] := fun h =>
      hzero (wordBytes_inj (show wordBytes word = wordBytes 0 from h))
    rw [if_neg hne, Session.ofWord, if_neg hzero]

/-- The lowest bit is all that is written of the flags. -/
theorem flag_eq (flags : UInt8) :
    (if decide (flags &&& 1 ≠ 0) then 1 else 0 : UInt8) = flags &&& 1 := by
  have hbit : flags &&& 1 = 0 ∨ flags &&& 1 = 1 := by
    rw [← UInt8.toNat_inj, ← UInt8.toNat_inj, UInt8.toNat_and]
    change flags.toNat &&& 1 = 0 ∨ flags.toNat &&& 1 = 1
    rw [Nat.and_one_is_mod]
    exact Nat.mod_two_eq_zero_or_one _
  rcases hbit with h | h <;> rw [h] <;> rfl

/-- **A frame that is read is written as its canonical form.** -/
theorem encode_of_decode {frame : Bytes} {m : Message} (h : decode frame = .ok m) :
    m.encode = canonical frame := by
  obtain ⟨kind, rest, rfl, h⟩ := of_decode h
  cases kind with
  | data =>
    obtain ⟨round, body, rfl, rfl⟩ := of_decodePayload h
    rfl
  | retry =>
    obtain ⟨round, body, rfl, rfl⟩ := of_decodePayload h
    rfl
  | ack =>
    obtain rfl := Except.ok.inj h
    rfl
  | turn =>
    obtain ⟨target, word, round, -, rfl, rfl⟩ := of_decodeTurn h
    exact (withNetwork_eq _ _ _ _).symm
  | joinRequest =>
    obtain ⟨joiner, -, rfl, rfl⟩ := of_decodeJoinRequest h
    rfl
  | joinAck =>
    obtain ⟨target, word, round, flags, members, -, -, -, rfl, rfl⟩ := of_decodeJoinAck h
    change _ = (withNetwork _).modify 10 (· &&& 1)
    rw [withNetwork_eq, encode, fields, flag_eq]
    rfl

end Message

/-- **Reading and writing undo each other.**  A message that names single nodes, a network and no
more members than a byte counts is read from its frame.  A frame that is read at all is written with
the same length and, but for a session of zero and the flags that mean nothing, with the same bytes,
and what is written is read as the same message. -/
theorem frame_round_trip : (∀ m : Message, m.WellFormed → Message.decode m.encode = .ok m) ∧
    ∀ (frame : Bytes) (m : Message), Message.decode frame = .ok m →
      m.encode.length = frame.length ∧ m.encode = Message.canonical frame ∧
        Message.decode m.encode = .ok m := by
  refine ⟨fun m h => Message.decode_encode h, fun frame m h => ?_⟩
  have hcanonical := Message.encode_of_decode h
  exact ⟨by rw [hcanonical, Message.length_canonical], hcanonical,
    Message.decode_encode (Message.wellFormed_of_decode h)⟩

/-- An admission with a session of zero and all flags set is read, and written with the session one
and the lowest flag. -/
theorem frame_round_trip_of_admission :
    (Message.joinAck ⟨2⟩ ⟨1⟩ 9 true [⟨1⟩, ⟨2⟩]).WellFormed ∧
    Message.decode [5, 2, 0, 0, 0, 0, 9, 0, 0, 0, 255, 2, 1, 2] =
      .ok (.joinAck ⟨2⟩ ⟨1⟩ 9 true [⟨1⟩, ⟨2⟩]) ∧
    Message.decode (Message.joinAck ⟨2⟩ ⟨1⟩ 9 true [⟨1⟩, ⟨2⟩]).encode =
      .ok (.joinAck ⟨2⟩ ⟨1⟩ 9 true [⟨1⟩, ⟨2⟩]) ∧
    (Message.joinAck ⟨2⟩ ⟨1⟩ 9 true [⟨1⟩, ⟨2⟩]).encode =
      Message.canonical [5, 2, 0, 0, 0, 0, 9, 0, 0, 0, 255, 2, 1, 2] := by
  have hread : Message.decode [5, 2, 0, 0, 0, 0, 9, 0, 0, 0, 255, 2, 1, 2] =
      .ok (.joinAck ⟨2⟩ ⟨1⟩ 9 true [⟨1⟩, ⟨2⟩]) := rfl
  have hfits : (Message.joinAck ⟨2⟩ ⟨1⟩ 9 true [⟨1⟩, ⟨2⟩]).WellFormed :=
    Message.wellFormed_of_decode hread
  exact ⟨hfits, hread, frame_round_trip.1 _ hfits, (frame_round_trip.2 _ _ hread).2.1⟩

end RadioRing
