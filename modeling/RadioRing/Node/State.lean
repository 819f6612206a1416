import RadioRing.Message.Basic
/-!
# Node/State — where a node stands in the life of the ring

A node asks to be admitted or founds a network, then listens; when a token reaches it, it speaks,
waits to be echoed and hands the token on.  `State.name` is the word an observer sees and
`State.text` adds whom the state is about.
-/

namespace RadioRing

/-- Where a node stands. -/
inductive State
  /-- Asks to be admitted. -/
  | requesting
  /-- Waits for an admission. -/
  | awaitingAdmission
  /-- Nobody answered: starts a network of its own. -/
  | founding
  /-- Is about to answer the request of `joiner`. -/
  | admitting (joiner : Address)
  /-- Is the only member of its network. -/
  | alone
  /-- Listens. -/
  | listening
  /-- Is about to acknowledge a payload of `holder`. -/
  | acknowledging (holder : Address) (echo : Bytes)
  /-- Is about to acknowledge the token that `giver` offered. -/
  | accepting (giver : Address) (echo : Bytes)
  /-- Starts its turn with a payload. -/
  | speaking
  /-- Waits for somebody to echo the payload. -/
  | awaitingEcho
  /-- Sends the payload again. -/
  | repeating
  /-- Offers the token to the next node. -/
  | offering
  /-- Waits for `taker` to acknowledge the offer. -/
  | awaitingTaker (taker : Address)
deriving DecidableEq, Inhabited, Repr

namespace State

/-- The word for a state, whomever it is about. -/
def name : State → String
  | requesting => "JoinSend"
  | awaitingAdmission => "JoinAwaitAck"
  | founding => "CreateNetwork"
  | admitting _ => "JoinSendAck"
  | alone => "Alone"
  | listening => "Recv"
  | acknowledging .. => "AckData"
  | accepting .. => "RecvTurn"
  | speaking => "Send"
  | awaitingEcho => "AwaitAck"
  | repeating => "RetrySend"
  | offering => "SendTurn"
  | awaitingTaker _ => "AwaitTurnAck"

/-- Whom a state is about. -/
def peer? : State → Option Address
  | admitting a | acknowledging a _ | accepting a _ | awaitingTaker a => some a
  | _ => none

/-- The frame that a state is about to echo. -/
def echo? : State → Option Bytes
  | acknowledging _ echo | accepting _ echo => some echo
  | _ => none

/-- Whether the node holds the token. -/
def isHolding : State → Bool
  | speaking | awaitingEcho | repeating | offering => true
  | _ => false

/-- The word for a state, with whom it is about in brackets. -/
def text (s : State) : String :=
  match s.peer? with
  | some a => s.name ++ "(" ++ a.text ++ ")"
  | none => s.name

end State

end RadioRing
