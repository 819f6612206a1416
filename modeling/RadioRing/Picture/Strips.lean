import RadioRing.Picture.Basic
/-!
# Picture/Strips — an area cut into equal parts

An area is cut into strips as equal as whole cells allow.  **The edge between two strips is the exact
one, rounded to hundredths of a cell and then to cells**, each time a half upwards; so it moves up
from 0.495 of a cell on.  The first strip starts where the area does, and the last one ends where it
ends.
-/

namespace RadioRing.Area

/-- A fraction as the nearest whole number; a half goes upwards. -/
def nearest (n d : Nat) : Nat := (2 * n + d) / (2 * d)

/-- Where the strip number `i` of `count` begins in a length. -/
def edge (length count i : Nat) : Nat := nearest (nearest (i * (100 * length)) count) 100

/-- The area cut into `count` strips, one below the other. -/
def stacked (a : Area) (count : Nat) : List Area :=
  (List.range count).map fun i =>
    let start := edge a.height count i
    { a with top := a.top + start, height := edge a.height count (i + 1) - start }

/-- The area cut into `count` strips, side by side. -/
def abreast (a : Area) (count : Nat) : List Area :=
  (List.range count).map fun i =>
    let start := edge a.width count i
    { a with left := a.left + start, width := edge a.width count (i + 1) - start }

/-- Panels in rows of at most `perRow`; **every row is cut up for the panels it has**, so a short
last row has wider ones. -/
def grid (a : Area) (perRow : Nat) (panels : List Panel) : List (Area × Panel) :=
  let rowCount := (panels.length + perRow - 1) / perRow
  (a.stacked rowCount).zipIdx.flatMap fun (strip, i) =>
    let row := (panels.drop (i * perRow)).take perRow
    (strip.abreast row.length).zip row

end RadioRing.Area
