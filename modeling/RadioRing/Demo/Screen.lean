import RadioRing.Demo.Basic
import RadioRing.Number.Decimal
import RadioRing.Picture.Strips
/-!
# Demo/Screen — the picture of a demo

Three rows at the top tell the time, the masters, the loss and the speed.  Below them every node of
the roster has a panel with what was last seen of it, **as many side by side as leave each at least
`panelWidth` cells**, but one at least.
-/

namespace RadioRing.Demo

variable {φ : Type}

/-- The look of a label. -/
def labelStyle : Style := { colour := .darkGray }

/-- The look of a value. -/
def valueStyle : Style := { bold := true }

/-- A label and what it stands for. -/
def labelled (label value : String) (style : Style := valueStyle) : CellRow :=
  labelStyle.cells (label ++ ": ") ++ style.cells value

/-- Addresses between commas. -/
def listed (addresses : List Address) : String := ",".intercalate (addresses.map Address.text)

/-- The seconds on the clock, to a tenth. -/
def seconds (now : Timestamp) : String :=
  Decimal.fixed 1 (Binary64.ofDecimal false now.millis 0 / 1000.0) ++ "s"

/-- A probability in whole hundredths. -/
def percent (p : Float) : String := Decimal.fixed 0 (p * 100.0) ++ "%"

/-- What can be typed. -/
def help : String := "[1-6] power  [space] pause  [+/-] speed  [q] quit"

/-- What the three rows at the top tell. -/
def header (d : Demo φ) : Panel :=
  let masters := d.simulation.masters
  let highlight : Style := { colour := .cyan, bold := true }
  let clock := if d.paused then "paused" else seconds d.simulation.now
  let columns : List CellRow :=
    [labelled "Time" clock { colour := .yellow, bold := true },
      labelled "Master" (if masters.isEmpty then "-" else listed masters) highlight,
      labelled "Loss" (percent d.simulation.medium.loss.value) highlight,
      labelled "Speed" ("x" ++ toString d.speed),
      labelStyle.cells help]
  { title := " Meshturn Demo - Token Passing Mesh "
    border := { colour := .cyan }
    lines := [(Style.cells {} "  ").intercalate columns] }

/-- What was seen of a node that is on. -/
def statusLines (s : Status) : List CellRow :=
  let role : Style := if s.master then { colour := .green, bold := true } else { colour := .gray }
  let count (n : Nat) : String := toString n
  [role.cells s.state,
    labelled "Session" ((s.session.map Session.text).getD "-"),
    labelled "Eligible" (listed s.eligible),
    labelled "Turns" (count s.stats.turnsTaken),
    labelled "Acks" (count s.stats.payloadsEchoed ++ " in / " ++ count s.stats.acksSent ++ " out"),
    labelled "Retries" (count s.stats.retriesSent),
    labelled "Evictions" (count s.stats.evictions),
    labelled "Watchdog" (count s.stats.watchdogFires),
    labelled "Yielded" (count s.stats.tokensYielded)]

/-- The panel of a node. -/
def nodePanel (a : Address) (status : Option Status) : Panel :=
  let title := " N" ++ a.text ++ " "
  match status with
  | none =>
    { title, border := { colour := .darkGray }, lines := [labelStyle.cells "powered off"] }
  | some s =>
    { title, border := { colour := if s.master then .green else .gray }, lines := statusLines s }

/-- The least width of the panel of a node that has neighbours. -/
def panelWidth : Nat := 26

/-- The rows at the top. -/
def headerHeight : Nat := 3

/-- The picture of a demo on a sheet of a given size. -/
def picture (d : Demo φ) (width height : Nat) : Picture :=
  let top : Area := ⟨0, 0, width, min headerHeight height⟩
  let below : Area := ⟨0, top.height, width, height - top.height⟩
  let perRow := max (width / panelWidth) 1
  let panels := d.views.map fun view => nodePanel view.1 view.2
  { width, height, panels := (top, d.header) :: below.grid (min perRow panels.length) panels }

end RadioRing.Demo
