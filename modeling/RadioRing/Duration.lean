/-!
# Duration — a bounded span of time

A `Duration` counts nanoseconds and stays **below 2^64 seconds**.  Sums and products that would
leave that range are refused (`add?`, `scale?`), and `wholeMillis` is the part of a duration that a
clock of milliseconds can tell.
-/

namespace RadioRing

/-- A span of time in nanoseconds, below 2^64 seconds. -/
@[ext]
structure Duration where
  /-- The length in nanoseconds. -/
  nanos : Nat
  /-- **No duration reaches 2^64 seconds.** -/
  bounded : nanos < 18446744073709551616000000000
deriving DecidableEq, Repr

namespace Duration

/-- The first number of nanoseconds that is no duration. -/
def limit : Nat := 18446744073709551616000000000

/-- The empty span. -/
def zero : Duration := ⟨0, by decide⟩

instance : Inhabited Duration := ⟨zero⟩

/-- The duration of `n` nanoseconds, if it is in range. -/
def ofNanos? (n : Nat) : Option Duration := if h : n < limit then some ⟨n, h⟩ else none

/-- The largest number of milliseconds a clock can show. -/
def maxMillis : Nat := 18446744073709551615

/-- A number of milliseconds, at most `maxMillis`. -/
def ofMillis (ms : Nat) : Duration :=
  ⟨min ms maxMillis * 1000000, by
    have : min ms maxMillis ≤ maxMillis := Nat.min_le_right _ _
    simp only [maxMillis] at this ⊢
    omega⟩

/-- A number of seconds small enough to be written in a program. -/
def ofSeconds (s : Nat) : Duration := ofMillis (1000 * s)

/-- The milliseconds that fit into the duration. -/
def wholeMillis (d : Duration) : Nat := d.nanos / 1000000

/-- The milliseconds that fit into the duration, as far as a clock can count them. -/
def clockMillis (d : Duration) : Nat := min d.wholeMillis maxMillis

/-- Whether the span is empty. -/
def isZero (d : Duration) : Bool := d.nanos = 0

instance : LT Duration := ⟨fun a b => a.nanos < b.nanos⟩

instance : LE Duration := ⟨fun a b => a.nanos ≤ b.nanos⟩

instance (a b : Duration) : Decidable (a < b) := inferInstanceAs (Decidable (a.nanos < b.nanos))

instance (a b : Duration) : Decidable (a ≤ b) := inferInstanceAs (Decidable (a.nanos ≤ b.nanos))

theorem lt_iff {a b : Duration} : a < b ↔ a.nanos < b.nanos := Iff.rfl

theorem le_iff {a b : Duration} : a ≤ b ↔ a.nanos ≤ b.nanos := Iff.rfl

/-- The shorter of two durations. -/
def shorter (a b : Duration) : Duration := if a ≤ b then a else b

theorem nanos_shorter (a b : Duration) : (a.shorter b).nanos = min a.nanos b.nanos := by
  unfold shorter
  split <;> simp_all [le_iff]
  omega

/-- The sum, if it is in range. -/
def add? (a b : Duration) : Option Duration := ofNanos? (a.nanos + b.nanos)

/-- The duration taken `n` times, if that is in range. -/
def scale? (a : Duration) (n : Nat) : Option Duration := ofNanos? (a.nanos * n)

theorem ofNanos?_eq_some_iff {n : Nat} {d : Duration} : ofNanos? n = some d ↔ d.nanos = n := by
  constructor
  · intro h
    simp only [ofNanos?] at h
    split at h
    · cases h
      rfl
    · cases h
  · rintro rfl
    have h : d.nanos < limit := d.bounded
    simp [ofNanos?, h]

theorem add?_eq_some_iff {a b d : Duration} : a.add? b = some d ↔ d.nanos = a.nanos + b.nanos :=
  ofNanos?_eq_some_iff

theorem scale?_eq_some_iff {a d : Duration} {n : Nat} :
    a.scale? n = some d ↔ d.nanos = a.nanos * n :=
  ofNanos?_eq_some_iff

@[simp] theorem nanos_zero : zero.nanos = 0 := rfl

@[simp] theorem nanos_ofMillis (ms : Nat) : (ofMillis ms).nanos = min ms maxMillis * 1000000 := rfl

@[simp] theorem wholeMillis_ofMillis (ms : Nat) : (ofMillis ms).wholeMillis = min ms maxMillis := by
  simp [wholeMillis]

end Duration

end RadioRing
