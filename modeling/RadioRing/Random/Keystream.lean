import RadioRing.Number.Power
/-!
# Random/Keystream — twelve rounds of a stream cipher, word by word

`block key n` is the `n`-th block of the keystream: sixteen words, stirred by **six double rounds**
and added to where they started.  A `Stream` hands the words of block 0, 1, 2 … out one at a time,
and `Stream.ofSeed` spreads a 64-bit seed over the key.
-/

namespace RadioRing.Random

/-- The sixteen words that a block is stirred from. -/
abbrev Words := Vector UInt32 16

/-- A word rotated to the left; `n` lies between 1 and 31. -/
def rotateLeft (w : UInt32) (n : UInt32) : UInt32 := (w <<< n) ||| (w >>> (32 - n))

/-- Word `x` takes word `y`, and word `z` is stirred by the sum. -/
def stir (v : Words) (x y z : Fin 16) (n : UInt32) : Words :=
  let sum := v[x] + v[y]
  (v.set x sum).set z (rotateLeft (v[z] ^^^ sum) n)

/-- Four words stirred through one another. -/
def quarterRound (v : Words) (a b c d : Fin 16) : Words :=
  let v := stir v a b d 16
  let v := stir v c d b 12
  let v := stir v a b d 8
  stir v c d b 7

/-- All columns of the four-by-four square, then all diagonals. -/
def doubleRound (v : Words) : Words :=
  let v := quarterRound v 0 4 8 12
  let v := quarterRound v 1 5 9 13
  let v := quarterRound v 2 6 10 14
  let v := quarterRound v 3 7 11 15
  let v := quarterRound v 0 5 10 15
  let v := quarterRound v 1 6 11 12
  let v := quarterRound v 2 7 8 13
  quarterRound v 3 4 9 14

/-- Where the block of number `n` starts: four constants, the key, the number and no nonce. -/
def startBlock (key : Vector UInt32 8) (n : Nat) : Words :=
  #v[0x61707865, 0x3320646e, 0x79622d32, 0x6b206574,
    key[0], key[1], key[2], key[3], key[4], key[5], key[6], key[7],
    n.toUInt32, (n / twoTo 32).toUInt32, 0, 0]

/-- The block of number `n` of the keystream. -/
def block (key : Vector UInt32 8) (n : Nat) : Words :=
  let start := startBlock key n
  (Nat.repeat doubleRound 6 start).zipWith (· + ·) start

/-- A place in a keystream. -/
structure Stream where
  /-- The key. -/
  key : Vector UInt32 8
  /-- How many words have been handed out. -/
  drawn : Nat
  /-- The block that the last word came from. -/
  current : Words

instance : Inhabited Stream := ⟨⟨Vector.replicate 8 0, 0, Vector.replicate 16 0⟩⟩

namespace Stream

/-- The next word. -/
def next (s : Stream) : UInt32 × Stream :=
  let place : Fin 16 := ⟨s.drawn % 16, Nat.mod_lt _ (by decide)⟩
  let current := if place = 0 then block s.key (s.drawn / 16) else s.current
  (current[place], { s with drawn := s.drawn + 1, current })

/-- The next two words as one number, the first word being the low half. -/
def nextWide (s : Stream) : Nat × Stream :=
  let (low, s) := s.next
  let (high, s) := s.next
  (low.toNat + twoTo 32 * high.toNat, s)

/-- One step of the generator that spreads a seed. -/
def spread (state : UInt64) : UInt64 := state * 6364136223846793005 + 11634580027462260723

/-- The key word that a state of that generator yields. -/
def keyWord (state : UInt64) : UInt32 :=
  let mixed := (((state >>> 18) ^^^ state) >>> 27).toUInt32
  let turn := (state >>> 59).toUInt32
  (mixed >>> turn) ||| (mixed <<< ((32 - turn) &&& 31))

/-- The stream of a seed. -/
def ofSeed (seed : UInt64) : Stream :=
  let state (i : Nat) : UInt64 := Nat.repeat spread (i + 1) seed
  ⟨Vector.ofFn fun i => keyWord (state i), 0, Vector.replicate 16 0⟩

end Stream

end RadioRing.Random
