import RadioRing.Radio.Basic
/-!
# Radio/Script — a radio that plays packets back

A `ScriptedRadio` hands out the packets it was given, one by one and without waiting, and keeps
every `Call` made to it.
-/

namespace RadioRing

/-- A call made to a radio. -/
inductive Call
  | sent (dest : Address) (frame : Bytes)
  | refused (dest : Address) (frame : Bytes)
  | waited (most : Duration)
  | listened
  | received (timeout : Duration)
deriving DecidableEq, Repr

/-- A call in one line. -/
def Call.text : Call → String
  | sent dest frame => "tx " ++ Digits.decimal dest.toNat ++ " " ++ Digits.hexBytes frame
  | refused dest frame => "txfail " ++ Digits.decimal dest.toNat ++ " " ++ Digits.hexBytes frame
  | waited most => "wait " ++ Digits.decimal most.nanos
  | listened => "listen"
  | received timeout => "rx " ++ Digits.decimal timeout.nanos

/-- A radio that plays packets back. -/
structure ScriptedRadio where
  reportsSender : Bool := true
  capacity : Nat := 251
  /-- The packets to come. -/
  inbox : List Packet := []
  /-- Whether it refuses every frame. -/
  failing : Bool := false
  /-- The calls made so far, the last one first. -/
  calls : List Call := []

namespace ScriptedRadio

/-- Keeps a call. -/
def keep (r : ScriptedRadio) (c : Call) : ScriptedRadio := { r with calls := c :: r.calls }

instance : Radio ScriptedRadio where
  capacity := capacity
  reportsSender := reportsSender
  send r dest frame :=
    if r.failing then (.error (.failed "scripted failure"), r.keep (.refused dest frame))
    else (.ok (), r.keep (.sent dest frame))
  receive r timeout :=
    match r.inbox with
    | [] => (none, r.keep (.received timeout))
    | p :: rest => (some p, { r with inbox := rest }.keep (.received timeout))
  awaitSent r most := r.keep (.waited most)
  listen r := r.keep .listened

end ScriptedRadio

end RadioRing
