import RadioRing.Message.Basic
/-!
# Message/Codec — messages as bytes

    DATA, RETRY    tag, round (4 bytes, low first), body
    ACK            tag, echo
    TURN           tag, target, session (4), round (4)
    JOIN_REQUEST   tag, joiner
    JOIN_ACK       tag, target, session (4), round (4), flags, member count, members

`Message.encode` writes that layout and `Message.decode` reads it; a short, long or unknown frame
gets the `FrameError` of **the first rule it breaks**.  `echoes` compares an acknowledgement with
the payload frame it should repeat.
-/

namespace RadioRing

/-- The four bytes of a word, low byte first. -/
def wordBytes (w : UInt32) : Bytes :=
  [w.toUInt8, (w >>> 8).toUInt8, (w >>> 16).toUInt8, (w >>> 24).toUInt8]

/-- The word of four bytes, low byte first. -/
def wordOfBytes (a b c d : UInt8) : UInt32 :=
  a.toUInt32 ||| (b.toUInt32 <<< 8) ||| (c.toUInt32 <<< 16) ||| (d.toUInt32 <<< 24)

namespace Message

/-- The bytes after the tag. -/
def fields : Message → Bytes
  | data round body => wordBytes round ++ body
  | retry round body => wordBytes round ++ body
  | ack echo => echo
  | turn target session round => target.byte :: (wordBytes session.word ++ wordBytes round)
  | joinRequest joiner => [joiner.byte]
  | joinAck target session round handsOver members =>
    target.byte :: (wordBytes session.word ++ (wordBytes round ++
      ((if handsOver then 1 else 0) :: members.length.toUInt8 :: members.map Address.byte)))

/-- The frame of a message.  The member count goes out modulo 256; a network has far fewer. -/
def encode (m : Message) : Bytes := m.tag.byte :: m.fields

/-- A node's address, which is not the one of all nodes. -/
def node (tag : Tag) (byte : UInt8) : Except FrameError Address :=
  if byte = Address.everyone.byte then .error (.namesEveryone tag) else .ok ⟨byte⟩

/-- A round and the body behind it. -/
def decodePayload (tag : Tag) (build : UInt32 → Bytes → Message) :
    Bytes → Except FrameError Message
  | a :: b :: c :: d :: body => .ok (build (wordOfBytes a b c d) body)
  | short => .error (.truncated tag 5 (1 + short.length))

/-- The fields of a TURN. -/
def decodeTurn : Bytes → Except FrameError Message
  | [target, s0, s1, s2, s3, r0, r1, r2, r3] => do
    let target ← node .turn target
    return turn target (Session.ofWord (wordOfBytes s0 s1 s2 s3)) (wordOfBytes r0 r1 r2 r3)
  | other =>
    if other.length < 9 then .error (.truncated .turn 10 (1 + other.length))
    else .error (.trailing .turn (other.length - 9))

/-- The field of a JOIN_REQUEST. -/
def decodeJoinRequest : Bytes → Except FrameError Message
  | [joiner] => do return joinRequest (← node .joinRequest joiner)
  | other =>
    if other.length < 1 then .error (.truncated .joinRequest 2 (1 + other.length))
    else .error (.trailing .joinRequest (other.length - 1))

/-- The fields of a JOIN_ACK.  Of the flags only the lowest bit counts. -/
def decodeJoinAck : Bytes → Except FrameError Message
  | target :: s0 :: s1 :: s2 :: s3 :: r0 :: r1 :: r2 :: r3 :: flags :: count :: members =>
    if members.length < count.toNat then
      .error (.truncated .joinAck (12 + count.toNat) (12 + members.length))
    else if count.toNat < members.length then
      .error (.trailing .joinAck (members.length - count.toNat))
    else do
      let members ← members.mapM (node .joinAck)
      let target ← node .joinAck target
      return joinAck target (Session.ofWord (wordOfBytes s0 s1 s2 s3))
        (wordOfBytes r0 r1 r2 r3) (flags &&& 1 ≠ 0) members
  | short => .error (.truncated .joinAck 12 (1 + short.length))

/-- The fields of a message of a known kind. -/
def decodeFields : Tag → Bytes → Except FrameError Message
  | .data, rest => decodePayload .data data rest
  | .retry, rest => decodePayload .retry retry rest
  | .ack, rest => .ok (ack rest)
  | .turn, rest => decodeTurn rest
  | .joinRequest, rest => decodeJoinRequest rest
  | .joinAck, rest => decodeJoinAck rest

/-- The kind a frame's first byte names. -/
def decodeTag (byte : UInt8) : Except FrameError Tag :=
  match Tag.ofByte? byte with
  | some tag => .ok tag
  | none => .error (.unknownTag byte)

/-- Reads a frame. -/
def decode : Bytes → Except FrameError Message
  | [] => .error .empty
  | first :: rest => do decodeFields (← decodeTag first) rest

end Message

/-- Whether a frame starts as a payload does, with the tag of DATA or of RETRY. -/
def startsAsPayload : Bytes → Bool
  | [] => false
  | first :: _ => first = Tag.data.byte || first = Tag.retry.byte

/-- Whether `echo` is, byte for byte, the payload frame of `round` that carries `body`: **the first
sending and the repetition count alike.** -/
def echoes (echo : Bytes) (round : UInt32) (body : Bytes) : Bool :=
  startsAsPayload echo && echo.drop 1 = wordBytes round ++ body

end RadioRing
