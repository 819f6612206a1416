import RadioRing.Duration
import RadioRing.Number.Text
import RadioRing.Options.Basic
/-!
# Demo/Options — what the demo can be told

The demo takes the number of nodes, the chance of loss, the length of a tick, the speed and the
seed; **each of them has a value of its own when it is not given.**
-/

namespace RadioRing

/-- What the demo is told. -/
structure DemoOptions where
  nodes : Nat := 4
  loss : Float := 0.05
  tickMillis : Nat := 50
  /-- Steps for each new picture. -/
  speed : Nat := 4
  seed : Nat := 1
deriving Inhabited, Repr

namespace DemoOptions

/-- The length of a tick. -/
def tick (o : DemoOptions) : Duration := .ofMillis o.tickMillis

/-- The largest number of 64 bits. -/
def maxWide : Nat := 18446744073709551615

/-- The probability that a text is, if it is one. -/
def probability? (s : String) : Option Float :=
  (NumberText.float? s).bind fun x => if 0.0 ≤ x ∧ x ≤ 1.0 then some x else none

/-- The options of the demo. -/
def specs : List OptionSpec :=
  [{ name := "nodes", letter := some 'n',
     accepts := fun s => (NumberText.integerBetween? 2 6 s).isSome },
   { name := "loss", letter := some 'l', accepts := fun s => (probability? s).isSome },
   { name := "tick-ms", letter := some 't',
     accepts := fun s => (NumberText.natural? maxWide s).isSome },
   { name := "speed", letter := some 's',
     accepts := fun s => (NumberText.integerBetween? 0 4294967295 s).isSome },
   { name := "seed", accepts := fun s => (NumberText.natural? maxWide s).isSome }]

/-- Reads the arguments of the demo. -/
def parse (args : List String) : Except UsageError DemoOptions := do
  let o ← Options.parse specs args
  let number (name : String) (otherwise : Nat) : Nat :=
    (((o.value? name).bind NumberText.integer?).map Int.toNat).getD otherwise
  let d : DemoOptions := {}
  return {
    nodes := number "nodes" d.nodes
    loss := ((o.value? "loss").bind NumberText.float?).getD d.loss
    tickMillis := number "tick-ms" d.tickMillis
    speed := number "speed" d.speed
    seed := number "seed" d.seed }

end DemoOptions

end RadioRing
