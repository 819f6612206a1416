import RadioRing.Deployment.Value
import RadioRing.Number.Decimal
import RadioRing.Number.Text
import RadioRing.Radio.Basic
import RadioRing.Settings
import RadioRing.SocketAddress
/-!
# Deployment — everything a deployed node is told

A `Deployment` says where a node listens and stores its records, and in whole milliseconds what its
`Settings` say in durations.  `Deployment.ofAssignments?` reads it from a settings file, in which
**every key may be missing** and unknown keys do not matter.
-/

namespace RadioRing

/-- Everything a deployed node is told. -/
structure Deployment where
  node : UInt8 := 1
  roster : List UInt8 := [1, 2, 3, 4]
  /-- Where the radios listen. -/
  bindHost : String := "127.0.0.1"
  /-- The radio of a node listens on the UDP port that lies its address above this one. -/
  basePort : Nat := 47000
  /-- Where the status pages are. -/
  statusAddress : SocketAddress := ⟨.short [127, 0, 0, 1], 8080⟩
  /-- The chance that a frame is dropped. -/
  loss : Float := 0.0
  /-- Where records are stored, if they are. -/
  dataDirectory : Option String := none
  joinRetryLimit : Nat := 3
  offerRetryLimit : Nat := 3
  turnMillis : Nat := 8000
  retryMillis : Nat := 2000
  joinResendMillis : Nat := 3000
  offerRetryMillis : Nat := 1500
  watchdogMillis : Nat := 30000
  answerJitterMillis : Nat := 500
  pollMillis : Nat := 200
deriving Inhabited, Repr

/-- Why a deployed node refuses to start. -/
inductive DeploymentError
  /-- The settings file cannot be opened. -/
  | file
  /-- The settings file cannot be read as one. -/
  | unreadable
  /-- The chance of loss is no probability. -/
  | loss (x : Float)
  /-- The protocol settings break a rule. -/
  | settings (e : SettingsError)
deriving Repr

/-- The text of an error. -/
def DeploymentError.message : DeploymentError → String
  | file => "failed to read config file"
  | unreadable => "failed to parse config file"
  | loss x => "loss probability " ++ Decimal.text .full x ++ " is not between 0 and 1"
  | settings e => "invalid protocol settings: " ++ e.message

/-- Whether a number is a probability. -/
def isProbability (x : Float) : Bool := 0.0 ≤ x && x ≤ 1.0

namespace Deployment

/-- The value that a key is given, read by `read`; `otherwise` if the key is missing. -/
def entry {β : Type} (as : Assignments) (key : String) (otherwise : β) (read : Value → Option β) :
    Option β :=
  match as.find? fun e => e.1 = key with
  | none => some otherwise
  | some (_, v) => read v

/-- A byte. -/
def byte? (v : Value) : Option UInt8 := (v.nat? 255).map Nat.toUInt8

/-- A text, or nothing. -/
def optionalText? : Value → Option (Option String)
  | .nothing => some none
  | v => v.text?.map some

/-- Reads a deployment from a settings file. -/
def ofAssignments? (as : Assignments) : Option Deployment := do
  let word (key : String) (otherwise : Nat) := entry as key otherwise (Value.nat? 4294967295)
  let wide (key : String) (otherwise : Nat) :=
    entry as key otherwise (Value.nat? 18446744073709551615)
  let d : Deployment := {}
  return {
    node := ← entry as "node" d.node byte?
    roster := ← entry as "universe" d.roster fun v => v.items?.bind fun vs => vs.mapM byte?
    bindHost := ← entry as "bind_host" d.bindHost Value.text?
    basePort := ← entry as "base_port" d.basePort (Value.nat? 65535)
    statusAddress := ← entry as "status_addr" d.statusAddress fun v =>
      v.text?.bind SocketAddress.parse?
    loss := ← entry as "loss" d.loss Value.float?
    dataDirectory := ← entry as "data_dir" d.dataDirectory optionalText?
    joinRetryLimit := ← word "max_join_retries" d.joinRetryLimit
    offerRetryLimit := ← word "max_turn_ack_retries" d.offerRetryLimit
    turnMillis := ← wide "turn_duration_ms" d.turnMillis
    retryMillis := ← wide "retry_interval_ms" d.retryMillis
    joinResendMillis := ← wide "join_resend_interval_ms" d.joinResendMillis
    offerRetryMillis := ← wide "turn_ack_retry_interval_ms" d.offerRetryMillis
    watchdogMillis := ← wide "watchdog_interval_ms" d.watchdogMillis
    answerJitterMillis := ← wide "ack_jitter_ms" d.answerJitterMillis
    pollMillis := ← wide "poll_interval_ms" d.pollMillis }

/-- The deployment as data, with the chance of loss as `lossText` writes it. -/
def json (d : Deployment) (lossText : Float → Json) : Json :=
  .object [("node", .nat d.node.toNat),
    ("universe", .array (d.roster.map fun b => .nat b.toNat)),
    ("bind_host", .text d.bindHost), ("base_port", .nat d.basePort),
    ("status_addr", .text d.statusAddress.text), ("loss", lossText d.loss),
    ("data_dir", (d.dataDirectory.map Json.text).getD .null),
    ("max_join_retries", .nat d.joinRetryLimit),
    ("max_turn_ack_retries", .nat d.offerRetryLimit),
    ("turn_duration_ms", .nat d.turnMillis), ("retry_interval_ms", .nat d.retryMillis),
    ("join_resend_interval_ms", .nat d.joinResendMillis),
    ("turn_ack_retry_interval_ms", .nat d.offerRetryMillis),
    ("watchdog_interval_ms", .nat d.watchdogMillis),
    ("ack_jitter_ms", .nat d.answerJitterMillis), ("poll_interval_ms", .nat d.pollMillis)]

/-- The protocol settings of a deployment, not yet checked. -/
def settings (d : Deployment) : Settings :=
  { node := ⟨d.node⟩
    roster := d.roster.map fun b => ⟨b⟩
    timings := {
      turn := .ofMillis d.turnMillis
      retry := .ofMillis d.retryMillis
      joinResend := .ofMillis d.joinResendMillis
      offerRetry := .ofMillis d.offerRetryMillis
      watchdog := .ofMillis d.watchdogMillis
      answerJitter := .ofMillis d.answerJitterMillis
      poll := .ofMillis d.pollMillis }
    joinRetryLimit := d.joinRetryLimit.toUInt32
    offerRetryLimit := d.offerRetryLimit.toUInt32 }

/-- The protocol settings of a deployment, if they and the chance of loss are in order. -/
def check (d : Deployment) : Except Overflow (Except DeploymentError Settings) :=
  if ¬isProbability d.loss then .ok (.error (.loss d.loss))
  else
    match d.settings.check with
    | .error e => .error e
    | .ok (.error e) => .ok (.error (.settings e))
    | .ok (.ok ()) => .ok (.ok d.settings)

/-- The UDP port that the radio of a node listens on, if there are that many. -/
def radioPort (basePort : Nat) (a : Address) : Except RadioError Nat :=
  let port := basePort + a.toNat
  if 65535 < port then
    .error (.failed ("no port for node " ++ a.text ++ " above " ++ Digits.decimal basePort))
  else .ok port

/-- The UDP ports of a node and of its peers, in the order in which they are looked up. -/
def radioPorts (basePort : Nat) (own : Address) (roster : List Address) :
    Except RadioError (List Nat) :=
  (own :: roster.filter (· ≠ own)).mapM (radioPort basePort)

end Deployment

end RadioRing
