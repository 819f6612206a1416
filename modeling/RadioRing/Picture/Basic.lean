/-!
# Picture — coloured text, cell by cell

A `Picture` is a sheet of cells with framed panels on it.  A panel is described by **the cell it
shows at each place**, counted from its own corner, so nothing is ever drawn over: its frame comes
first, then the title in the top edge, then the lines inside, and what no text reaches is blank.
-/

namespace RadioRing

/-- The colour of a symbol. -/
inductive Colour
  | plain
  | cyan
  | green
  | yellow
  | gray
  | darkGray
deriving DecidableEq, Repr, Inhabited

/-- How a symbol looks. -/
structure Style where
  colour : Colour := .plain
  bold : Bool := false
deriving DecidableEq, Repr, Inhabited

/-- One place of a picture; a blank one if nothing else is said. -/
structure Cell where
  symbol : Char := ' '
  style : Style := {}
deriving DecidableEq, Repr, Inhabited

/-- A row of cells. -/
abbrev CellRow := List Cell

/-- The cells of a text in one style. -/
def Style.cells (style : Style) (text : String) : CellRow :=
  text.toList.map fun symbol => { symbol, style }

/-- The text of a row. -/
def CellRow.text (row : CellRow) : String := String.ofList (row.map Cell.symbol)

/-- A part of a picture. -/
structure Area where
  left : Nat
  top : Nat
  width : Nat
  height : Nat
deriving DecidableEq, Repr, Inhabited

/-- Whether a place lies in the area. -/
def Area.contains (a : Area) (x y : Nat) : Bool :=
  a.left ≤ x && x < a.left + a.width && a.top ≤ y && y < a.top + a.height

/-- A framed part of a picture, wherever it stands. -/
structure Panel where
  title : String
  /-- The look of the frame and of the title. -/
  border : Style
  lines : List CellRow
deriving Inhabited

namespace Panel

/-- The symbol of a frame at a place.  **A frame too small for all four corners** keeps the left
ones before the right ones, and the upper of these before the lower. -/
def frame? (width height x y : Nat) : Option Char :=
  if x = 0 ∧ y = 0 then some '┌'
  else if x = 0 ∧ y + 1 = height then some '└'
  else if x + 1 = width ∧ y = 0 then some '┐'
  else if x + 1 = width ∧ y + 1 = height then some '┘'
  else if y = 0 ∨ y + 1 = height then some '─'
  else if x = 0 ∨ x + 1 = width then some '│'
  else none

/-- The symbol of the title at a place: in the top edge, between the corners. -/
def title? (p : Panel) (width x y : Nat) : Option Char :=
  if y = 0 ∧ 1 ≤ x ∧ x + 1 < width then p.title.toList[x - 1]? else none

/-- The cell of the lines at a place, counted from the corner of the frame. -/
def inside? (p : Panel) (x y : Nat) : Option Cell := p.lines[y - 1]?.bind (·[x - 1]?)

/-- The cell at a place of the panel, which is `width` cells wide and `height` cells high. -/
def cell (p : Panel) (width height x y : Nat) : Cell :=
  match frame? width height x y with
  | some edge => { symbol := (p.title? width x y).getD edge, style := p.border }
  | none => (p.inside? x y).getD {}

end Panel

/-- Panels on a sheet. -/
structure Picture where
  width : Nat
  height : Nat
  panels : List (Area × Panel)
deriving Inhabited

namespace Picture

/-- The cell at a place: that of the panel that lies there, if any does. -/
def cell (p : Picture) (x y : Nat) : Cell :=
  match p.panels.find? fun placed => placed.1.contains x y with
  | some (area, panel) => panel.cell area.width area.height (x - area.left) (y - area.top)
  | none => {}

/-- All rows of a picture, from top to bottom. -/
def rows (p : Picture) : List CellRow :=
  (List.range p.height).map fun y => (List.range p.width).map fun x => p.cell x y

/-- **A picture fills its size**, whatever lies on it. -/
theorem length_rows (p : Picture) : p.rows.length = p.height := by simp [rows]

/-- Every row is as wide as the picture. -/
theorem length_of_mem_rows {p : Picture} {row : CellRow} (h : row ∈ p.rows) :
    row.length = p.width := by
  obtain ⟨y, -, rfl⟩ := List.mem_map.1 h
  simp

end Picture

end RadioRing
