import RadioRing.Random.Draw
/-!
# Medium/Loss — the chance that a copy of a frame is lost

A `Loss` is a probability: `Loss.ofFloat` **brings every setting between 0 and 1** and reads one
that is no number as no loss.  `Loss.strikes` tosses the coin for one copy; without loss nothing is
drawn.
-/

namespace RadioRing

/-- The chance that a copy of a frame is lost. -/
structure Loss where
  /-- A number from 0 to 1. -/
  value : Float
deriving Repr

namespace Loss

/-- No copy is lost. -/
def never : Loss := ⟨0.0⟩

instance : Inhabited Loss := ⟨never⟩

/-- The probability nearest to a setting. -/
def ofFloat (x : Float) : Loss :=
  if x.isNaN then never
  else if x < 0.0 then never
  else if 1.0 < x then ⟨1.0⟩
  else ⟨x⟩

/-- Whether any copy can be lost at all. -/
def isPossible (l : Loss) : Bool := 0.0 < l.value

/-- Whether the next copy is lost. -/
def strikes (l : Loss) (random : Random.Stream) : Bool × Random.Stream :=
  if l.isPossible then random.coin l.value else (false, random)

end Loss

end RadioRing
