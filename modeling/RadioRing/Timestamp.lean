import RadioRing.Duration
import RadioRing.Text.Digits
/-!
# Timestamp — a saturating clock of milliseconds, and its deadlines

A clock shows whole milliseconds and stops at its last value: `Timestamp.after` adds the whole
milliseconds of a duration and **never wraps**.  A `Deadline` is the moment a timer was armed for;
until then it has not elapsed (`Deadline.elapsed_after_eq_false_iff`), and from then on it has.
-/

namespace RadioRing

/-- A reading of a clock in milliseconds. -/
@[ext]
structure Timestamp where
  /-- Milliseconds since the clock's origin. -/
  millis : Nat
  /-- **A clock shows at most 2^64 - 1 milliseconds.** -/
  bounded : millis ≤ Duration.maxMillis
deriving DecidableEq, Repr

namespace Timestamp

/-- The origin of the clock. -/
def zero : Timestamp := ⟨0, Nat.zero_le _⟩

instance : Inhabited Timestamp := ⟨zero⟩

/-- The reading at `ms` milliseconds, or the clock's last one. -/
def ofMillis (ms : Nat) : Timestamp := ⟨min ms Duration.maxMillis, Nat.min_le_right _ _⟩

instance : LT Timestamp := ⟨fun a b => a.millis < b.millis⟩

instance : LE Timestamp := ⟨fun a b => a.millis ≤ b.millis⟩

instance (a b : Timestamp) : Decidable (a < b) := inferInstanceAs (Decidable (a.millis < b.millis))

instance (a b : Timestamp) : Decidable (a ≤ b) := inferInstanceAs (Decidable (a.millis ≤ b.millis))

theorem lt_iff {a b : Timestamp} : a < b ↔ a.millis < b.millis := Iff.rfl

theorem le_iff {a b : Timestamp} : a ≤ b ↔ a.millis ≤ b.millis := Iff.rfl

/-- The reading `d` later: whole milliseconds only, and never past the clock's end. -/
def after (t : Timestamp) (d : Duration) : Timestamp := ofMillis (t.millis + d.wholeMillis)

/-- The time from `earlier` to `t`, empty if `earlier` is the later one. -/
def since (t earlier : Timestamp) : Duration := Duration.ofMillis (t.millis - earlier.millis)

@[simp] theorem millis_ofMillis (ms : Nat) : (ofMillis ms).millis = min ms Duration.maxMillis := rfl

@[simp] theorem millis_after (t : Timestamp) (d : Duration) :
    (t.after d).millis = min (t.millis + d.wholeMillis) Duration.maxMillis := rfl

/-- A clock that a duration is added to never goes back. -/
theorem le_after (t : Timestamp) (d : Duration) : t ≤ t.after d := by
  have := t.bounded
  rw [le_iff, millis_after]
  omega

/-- The reading at `now` of a clock that was set going at `origin`, both in milliseconds. -/
def reading (origin now : Nat) : Timestamp := ofMillis (now - origin)

/-- Seconds with three places. -/
def text (t : Timestamp) : String :=
  Digits.decimal (t.millis / 1000) ++ "." ++ Digits.padded 3 (Digits.decimal (t.millis % 1000))
    ++ "s"

end Timestamp

/-- The moment a timer was armed for. -/
@[ext]
structure Deadline where
  /-- The first reading at which the timer has fired. -/
  moment : Timestamp
deriving DecidableEq, Repr, Inhabited

namespace Deadline

/-- A deadline that has elapsed at every reading. -/
def expired : Deadline := ⟨Timestamp.zero⟩

/-- The deadline `d` after `now`. -/
def after (now : Timestamp) (d : Duration) : Deadline := ⟨now.after d⟩

/-- Whether `now` has reached the deadline. -/
def elapsed (x : Deadline) (now : Timestamp) : Bool := x.moment ≤ now

/-- The time left at `now`. -/
def remaining (x : Deadline) (now : Timestamp) : Duration := x.moment.since now

/-- The earlier of two deadlines. -/
def earlier (x y : Deadline) : Deadline := if x.moment ≤ y.moment then x else y

theorem elapsed_iff {x : Deadline} {now : Timestamp} :
    x.elapsed now = true ↔ x.moment.millis ≤ now.millis := by
  simp [elapsed, Timestamp.le_iff]

theorem elapsed_eq_false_iff {x : Deadline} {now : Timestamp} :
    x.elapsed now = false ↔ now.millis < x.moment.millis := by
  simp [elapsed, Timestamp.le_iff]

/-- **A timer runs** until the whole milliseconds it was armed for are over, or the clock stops. -/
theorem elapsed_after_eq_false_iff {start now : Timestamp} {d : Duration} :
    (after start d).elapsed now = false ↔
      now.millis < min (start.millis + d.wholeMillis) Duration.maxMillis :=
  elapsed_eq_false_iff

/-- The earlier of two deadlines has elapsed if one of them has. -/
theorem elapsed_earlier (x y : Deadline) (now : Timestamp) :
    (x.earlier y).elapsed now = (x.elapsed now || y.elapsed now) := by
  rw [Bool.eq_iff_iff, Bool.or_eq_true]
  simp only [earlier, elapsed_iff, Timestamp.le_iff]
  split <;> omega

end Deadline

end RadioRing
