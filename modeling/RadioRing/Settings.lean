import RadioRing.Address
import RadioRing.Duration
import RadioRing.Text.Digits
/-!
# Settings — what one node is told before it starts

`Settings` holds the node's own address, the roster of addresses that may take part, the timer
budgets and the two retry limits.  `Settings.check` reports **the first rule they break**, and
`turnCycle?` is the longest silence that a working holder can cause; a node must wait longer than
that before it presumes anybody dead.
-/

namespace RadioRing

/-- The timer budgets of a node. -/
structure Timings where
  /-- How long a holder waits for its payload to be acknowledged. -/
  turn : Duration := .ofMillis 8000
  /-- Between two sendings of one payload. -/
  retry : Duration := .ofMillis 2000
  /-- Between two requests to be admitted. -/
  joinResend : Duration := .ofMillis 3000
  /-- Between two offers of the token to one node. -/
  offerRetry : Duration := .ofMillis 1500
  /-- The silence after which the holder is presumed dead. -/
  watchdog : Duration := .ofMillis 30000
  /-- The longest random delay before an answer. -/
  answerJitter : Duration := .ofMillis 500
  /-- How long a node waits for a frame to leave its radio. -/
  sendComplete : Duration := .ofMillis 1000
  /-- The longest single wait for a frame. -/
  poll : Duration := .ofMillis 200
deriving DecidableEq, Inhabited, Repr

/-- What one node is told before it starts. -/
structure Settings where
  /-- The node's own address. -/
  node : Address
  /-- Every address that may ever take part. -/
  roster : List Address
  /-- The timer budgets. -/
  timings : Timings := {}
  /-- How often a request to be admitted is repeated before the node founds a network. -/
  joinRetryLimit : UInt32 := 3
  /-- How often an offer of the token is repeated before its target is evicted. -/
  offerRetryLimit : UInt32 := 3
deriving DecidableEq, Inhabited, Repr

/-- Why a node refuses to start. -/
inductive SettingsError
  /-- The roster is empty. -/
  | emptyRoster
  /-- The roster has `got` addresses and may have `most`. -/
  | rosterTooLarge (most got : Nat)
  /-- The address of all nodes is listed as a node. -/
  | everyoneInRoster
  /-- An address is listed twice. -/
  | duplicateNode (a : Address)
  /-- The node's own address is not listed. -/
  | selfNotInRoster (a : Address)
  /-- The named budget is empty. -/
  | zeroDuration (name : String)
  /-- A payload would not be repeated within its turn. -/
  | retryExceedsTurn (retryMillis turnMillis : Nat)
  /-- A working holder could be presumed dead. -/
  | watchdogTooShort (watchdogMillis cycleMillis : Nat)
deriving DecidableEq, Repr

namespace SettingsError

/-- The text of an error. -/
def message : SettingsError → String
  | emptyRoster => "node universe is empty"
  | rosterTooLarge most got =>
    "node universe has " ++ Digits.decimal got ++ " ids, at most " ++ Digits.decimal most
      ++ " supported"
  | everyoneInRoster => "broadcast address cannot be a node id"
  | duplicateNode a => "node " ++ a.text ++ " listed twice in universe"
  | selfNotInRoster a => "local node " ++ a.text ++ " is not in the universe"
  | zeroDuration name => name ++ " must be greater than zero"
  | retryExceedsTurn retryMillis turnMillis =>
    "retry interval (" ++ Digits.decimal retryMillis ++ " ms) must be shorter than turn duration ("
      ++ Digits.decimal turnMillis ++ " ms)"
  | watchdogTooShort watchdogMillis cycleMillis =>
    "watchdog (" ++ Digits.decimal watchdogMillis ++ " ms) must exceed one full turn cycle ("
      ++ Digits.decimal cycleMillis ++ " ms)"

end SettingsError

/-- A sum or product of durations leaves the range of `Duration`, or a count that of its word. -/
inductive Overflow
  /-- The longest silence of a working holder. -/
  | turnCycle
  /-- The wait for the answer to a request to be admitted. -/
  | joinWait
  /-- The wait of a lone node before it looks for a network. -/
  | rescanWait
deriving DecidableEq, Repr

namespace Settings

/-- The most addresses a roster may have. -/
def maxRoster : Nat := 16

/-- The longest silence of a working holder: a full turn, every offer to one successor, and the
delay of the last acknowledgement.  There is none if the number of offers does not fit a word or
the sum is no duration. -/
def turnCycle? (s : Settings) : Option Duration := do
  let offers := s.offerRetryLimit.toNat + 1
  guard (offers < 4294967296)
  let offering ← s.timings.offerRetry.scale? offers
  let busy ← s.timings.turn.add? offering
  busy.add? s.timings.answerJitter

/-- The first address of a roster that may not stand where it does, given those `before` it. -/
def checkAddresses (before : List Address) : List Address → Except SettingsError Unit
  | [] => .ok ()
  | a :: rest =>
    if a.isEveryone then .error .everyoneInRoster
    else if a ∈ before then .error (.duplicateNode a)
    else checkAddresses (a :: before) rest

/-- The budgets that may not be empty, with their names. -/
def neededBudgets (t : Timings) : List (String × Duration) :=
  [("turn_duration", t.turn), ("retry_interval", t.retry), ("join_resend_interval", t.joinResend),
    ("turn_ack_retry_interval", t.offerRetry), ("watchdog_interval", t.watchdog),
    ("poll_interval", t.poll)]

/-- Fails at the first empty budget. -/
def checkBudgets : List (String × Duration) → Except SettingsError Unit
  | [] => .ok ()
  | (name, d) :: rest => if d.isZero then .error (.zeroDuration name) else checkBudgets rest

/-- The rules that stand before any sum of durations is taken. -/
def checkParts (s : Settings) : Except SettingsError Unit := do
  if s.roster.isEmpty then throw .emptyRoster
  if maxRoster < s.roster.length then
    throw (.rosterTooLarge maxRoster s.roster.length)
  checkAddresses [] s.roster
  if s.node ∉ s.roster then throw (.selfNotInRoster s.node)
  checkBudgets (neededBudgets s.timings)
  if s.timings.turn ≤ s.timings.retry then
    throw (.retryExceedsTurn s.timings.retry.wholeMillis s.timings.turn.wholeMillis)

/-- The first rule that the settings break, if any; an overflow if the last rule cannot even be
looked at. -/
def check (s : Settings) : Except Overflow (Except SettingsError Unit) :=
  match s.checkParts with
  | .error e => .ok (.error e)
  | .ok () =>
    match s.turnCycle? with
    | none => .error .turnCycle
    | some cycle =>
      if s.timings.watchdog ≤ cycle then
        .ok (.error (.watchdogTooShort s.timings.watchdog.wholeMillis cycle.wholeMillis))
      else .ok (.ok ())

end Settings

end RadioRing
