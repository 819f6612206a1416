import RadioRing.Random.Keystream
import RadioRing.Number.Binary64
/-!
# Random/Draw — evenly spread numbers and weighted coins

`Stream.within` scales a word to a range by keeping the high part of a product, and draws again
while the low part falls outside the zone in which **every result has equally many words**.
`Stream.upTo` and `Stream.byteBetween` choose zones for 64-bit and for byte ranges, and
`Stream.coin` is true with a given probability.
-/

namespace RadioRing.Random.Stream

/-- How often a word outside the zone is replaced before one is taken as it comes. -/
def patience : Nat := 256

/-- A number below `range`, from words below `size` that `word` draws. -/
def within (size range zone : Nat) (word : Stream → Nat × Stream) : Nat → Stream → Nat × Stream
  | 0, s =>
    let (v, s) := word s
    (v * range / size, s)
  | fuel + 1, s =>
    let (v, s) := word s
    if v * range % size ≤ zone then (v * range / size, s)
    else within size range zone word fuel s

/-- A number from 0 to `most`, which lies below 2^64. -/
def upTo (most : Nat) (s : Stream) : Nat × Stream :=
  let range := most + 1
  if range = twoTo 64 then s.nextWide
  else within (twoTo 64) range (range * twoTo (63 - range.log2) - 1) nextWide patience s

/-- The next word as a number. -/
def nextNat (s : Stream) : Nat × Stream :=
  let (w, s) := s.next
  (w.toNat, s)

/-- A number from `low` to `high`, both of them bytes. -/
def byteBetween (low high : Nat) (s : Stream) : Nat × Stream :=
  let range := high - low + 1
  let zone := twoTo 32 - 1 - (twoTo 32 - range) % range
  let (v, s) := within (twoTo 32) range zone nextNat patience s
  (low + v, s)

/-- How many of the 2^64 wide words make a coin of probability `p` come up true. -/
def coinWords (p : Float) : Nat :=
  match Binary64.shape p with
  | .finite false mantissa exponent =>
    mantissa * twoTo (exponent + 64).toNat / twoTo (-(exponent + 64)).toNat
  | _ => 0

/-- A coin of probability `p`.  **A certain one is not tossed.** -/
def coin (p : Float) (s : Stream) : Bool × Stream :=
  if twoTo 64 ≤ coinWords p then (true, s)
  else
    let (v, s) := s.nextWide
    (v < coinWords p, s)

end RadioRing.Random.Stream
