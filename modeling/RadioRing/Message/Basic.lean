import RadioRing.Address
import RadioRing.Text.Digits
/-!
# Message — what nodes say to one another

A `Message` is a frame's meaning: the payload of a turn (`data`, `retry`), an acknowledgement that
repeats what it acknowledges (`ack`), the offer of the token (`turn`), and the two halves of an
admission (`joinRequest`, `joinAck`).  `Tag` is the kind of a message, `FrameError` what can be
wrong with bytes that should be one, and each has its text.
-/

namespace RadioRing

/-- The text of a session: its word with eight base-sixteen digits. -/
def Session.text (s : Session) : String := Digits.padded 8 (Digits.hex s.word.toNat)

/-- The kinds of message, in the order of their leading bytes. -/
inductive Tag
  | data
  | retry
  | ack
  | turn
  | joinRequest
  | joinAck
deriving DecidableEq, Inhabited, Repr

namespace Tag

/-- The byte a frame of this kind starts with. -/
def byte : Tag → UInt8
  | data => 0
  | retry => 1
  | ack => 2
  | turn => 3
  | joinRequest => 4
  | joinAck => 5

/-- The kind of a frame that starts with `b`. -/
def ofByte? (b : UInt8) : Option Tag :=
  if b = 0 then some data
  else if b = 1 then some retry
  else if b = 2 then some ack
  else if b = 3 then some turn
  else if b = 4 then some joinRequest
  else if b = 5 then some joinAck
  else none

/-- The name of a kind. -/
def text : Tag → String
  | data => "DATA"
  | retry => "RETRY"
  | ack => "ACK"
  | turn => "TURN"
  | joinRequest => "JOIN_REQUEST"
  | joinAck => "JOIN_ACK"

@[simp] theorem ofByte?_byte (t : Tag) : ofByte? t.byte = some t := by cases t <;> rfl

theorem ofByte?_eq_some_iff {b : UInt8} {t : Tag} : ofByte? b = some t ↔ b = t.byte := by
  constructor
  · intro h
    unfold ofByte? at h
    repeat' split at h
    all_goals simp_all [byte]
    all_goals (subst h; rfl)
  · rintro rfl
    exact ofByte?_byte t

end Tag

/-- The meaning of a frame. -/
inductive Message
  /-- The payload of a turn, with the round of the speaker's token. -/
  | data (round : UInt32) (body : Bytes)
  /-- The same payload once more. -/
  | retry (round : UInt32) (body : Bytes)
  /-- An acknowledgement, which repeats the acknowledged frame. -/
  | ack (echo : Bytes)
  /-- The offer of the token of `round` to `target`. -/
  | turn (target : Address) (session : Session) (round : UInt32)
  /-- A request to be admitted. -/
  | joinRequest (joiner : Address)
  /-- The admission of `target`: the session to adopt, the latest round heard of, whether the token
  comes with the admission, and who is in the network. -/
  | joinAck (target : Address) (session : Session) (round : UInt32) (handsOver : Bool)
      (members : List Address)
deriving DecidableEq, Inhabited, Repr

namespace Message

/-- The kind of a message. -/
def tag : Message → Tag
  | data .. => .data
  | retry .. => .retry
  | ack .. => .ack
  | turn .. => .turn
  | joinRequest .. => .joinRequest
  | joinAck .. => .joinAck

/-- A message in one line. -/
def text : Message → String
  | data round body => payload "DATA" round body
  | retry round body => payload "RETRY" round body
  | ack echo => "ACK(" ++ Digits.decimal echo.length ++ " bytes)"
  | turn target session round =>
    "TURN(to " ++ target.text ++ ", session " ++ session.text ++ ", round "
      ++ Digits.decimal round.toNat ++ ")"
  | joinRequest joiner => "JOIN_REQUEST(from " ++ joiner.text ++ ")"
  | joinAck target _ _ handsOver members =>
    "JOIN_ACK(to " ++ target.text ++ ", " ++ Digits.decimal members.length
      ++ " members, hand_off " ++ toString handsOver ++ ")"
where
  payload (name : String) (round : UInt32) (body : Bytes) : String :=
    name ++ "(round " ++ Digits.decimal round.toNat ++ ", " ++ Digits.decimal body.length
      ++ " bytes)"

end Message

/-- What is wrong with bytes that are no message. -/
inductive FrameError
  /-- There are none. -/
  | empty
  /-- The first one names no kind. -/
  | unknownTag (byte : UInt8)
  /-- There are fewer than the kind needs. -/
  | truncated (tag : Tag) (needed got : Nat)
  /-- There are more than the kind takes. -/
  | trailing (tag : Tag) (extra : Nat)
  /-- The address of all nodes stands where one node has to be named. -/
  | namesEveryone (tag : Tag)
deriving DecidableEq, Repr

namespace FrameError

/-- The text of an error. -/
def message : FrameError → String
  | empty => "empty frame"
  | unknownTag byte => "unknown tag 0x" ++ Digits.hexBytes [byte]
  | truncated tag needed got =>
    tag.text ++ " frame truncated: need " ++ Digits.decimal needed ++ " bytes, got "
      ++ Digits.decimal got
  | trailing tag extra =>
    tag.text ++ " frame has " ++ Digits.decimal extra ++ " trailing bytes"
  | namesEveryone tag => tag.text ++ " frame names the broadcast address"

end FrameError

end RadioRing
