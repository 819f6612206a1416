import RadioRing.Proofs.Overflows

/-!
# Proofs/ClockOrder — the order of the timers on a clock of milliseconds

The check of the settings compares durations to the nanosecond, and a deadline is armed by the whole
milliseconds of its duration only.  **Rounding down keeps an order, but can make a tie of it**: what
the check lets through fires in the order that it means, or at once.  The order is strict exactly
where the whole milliseconds tell the durations apart (`order_on_clock`), and so it is wherever the
settings count nothing smaller, as those of a deployment do.
-/

namespace RadioRing

namespace Duration

/-- A whole number of milliseconds. -/
def IsWhole (d : Duration) : Prop := d.nanos = d.wholeMillis * 1000000

theorem wholeMillis_mul_le (d : Duration) : d.wholeMillis * 1000000 ≤ d.nanos :=
  Nat.div_mul_le_self _ _

/-- A duration has as many whole milliseconds as fit into its nanoseconds. -/
theorem le_wholeMillis_iff {d : Duration} {ms : Nat} :
    ms ≤ d.wholeMillis ↔ ms * 1000000 ≤ d.nanos :=
  Nat.le_div_iff_mul_le (by decide)

theorem wholeMillis_mono {a b : Duration} (h : a ≤ b) : a.wholeMillis ≤ b.wholeMillis :=
  Nat.div_le_div_right h

/-- A number of milliseconds is a duration without a fraction. -/
theorem isWhole_ofMillis (ms : Nat) : (ofMillis ms).IsWhole := by
  rw [IsWhole, wholeMillis_ofMillis, nanos_ofMillis]

end Duration

/-- The reading after so many waits of one length, one after another. -/
def Timestamp.afterEach (t : Timestamp) (d : Duration) : Nat → Timestamp
  | 0 => t
  | count + 1 => (t.afterEach d count).after d

/-- **Waits that follow one another lose what each of them has left over.** -/
theorem Timestamp.millis_afterEach (t : Timestamp) (d : Duration) (count : Nat) :
    (t.afterEach d count).millis = min (t.millis + count * d.wholeMillis) Duration.maxMillis := by
  induction count with
  | zero =>
    have := t.bounded
    simp [afterEach, Nat.min_eq_left this]
  | succ count ih =>
    rw [afterEach, millis_after, ih, Nat.succ_mul]
    omega

namespace Settings

variable {s : Settings} {now : Timestamp} {d : Duration}

/-! ## What the check lets through -/

theorem nanos_ne_zero_of_checkBudgets {budgets : List (String × Duration)}
    (h : checkBudgets budgets = .ok ()) : ∀ b ∈ budgets, b.2.nanos ≠ 0 := by
  induction budgets with
  | nil => exact List.forall_mem_nil _
  | cons b rest ih =>
    unfold checkBudgets at h
    split at h
    · exact absurd h nofun
    · rename_i filled
      exact List.forall_mem_cons.2 ⟨by simpa [Duration.isZero] using filled, ih h⟩

theorem budgets_of_checkParts (h : s.checkParts = .ok ()) :
    checkBudgets (neededBudgets s.timings) = .ok () ∧ s.timings.retry < s.timings.turn := by
  simp only [checkParts, bind, Except.bind, throw, throwThe, MonadExceptOf.throw] at h
  repeat' split at h
  all_goals first
    | exact ⟨‹_›, Nat.not_le.1 ‹¬s.timings.turn ≤ s.timings.retry›⟩
    | cases h

/-- The order that the check means, to the nanosecond. -/
theorem order_of_check (h : s.check = .ok (.ok ())) :
    (∀ b ∈ neededBudgets s.timings, b.2.nanos ≠ 0) ∧ s.timings.retry < s.timings.turn ∧
      s.timings.turn.nanos + s.timings.offerRetry.nanos * (s.offerRetryLimit.toNat + 1) +
        s.timings.answerJitter.nanos < s.timings.watchdog.nanos := by
  unfold check at h
  split at h
  · exact absurd h nofun
  · rename_i parts
    obtain ⟨budgets, repetition⟩ := budgets_of_checkParts parts
    split at h
    · exact absurd h nofun
    · rename_i cycle hcycle
      split at h
      · exact absurd h nofun
      · rename_i patient
        refine ⟨nanos_ne_zero_of_checkBudgets budgets, repetition, ?_⟩
        rw [(turnCycle?_eq_some_iff.1 hcycle).2]
        exact Nat.not_le.1 patient

/-! ## What the clock makes of it -/

/-- The budgets that a deadline is armed by. -/
def armedBudgets (t : Timings) : List Duration :=
  [t.turn, t.retry, t.joinResend, t.offerRetry, t.watchdog]

/-- The reading at which the turn, then every offer to one successor, and then the longest delay of
an answer are over, each of them armed when the one before has fired. -/
def endOfCycle (s : Settings) (now : Timestamp) : Timestamp :=
  ((now.after s.timings.turn).afterEach s.timings.offerRetry
    (s.offerRetryLimit.toNat + 1)).after s.timings.answerJitter

/-- The whole milliseconds of a cycle, counted wait by wait. -/
def cycleMillis (s : Settings) : Nat :=
  s.timings.turn.wholeMillis + (s.offerRetryLimit.toNat + 1) * s.timings.offerRetry.wholeMillis +
    s.timings.answerJitter.wholeMillis

/-- On the clock a turn cycle takes the whole milliseconds of its parts, each for itself. -/
theorem millis_endOfCycle (s : Settings) (now : Timestamp) :
    (s.endOfCycle now).millis = min (now.millis + s.cycleMillis) Duration.maxMillis := by
  rw [endOfCycle, Timestamp.millis_after, Timestamp.millis_afterEach, Timestamp.millis_after,
    cycleMillis]
  omega

/-- The timers are in order on a clock that shows `now`: none has fired when it is armed, a payload
is repeated before its turn is over, and a whole cycle is over before a listener loses patience. -/
structure InOrder (s : Settings) (now : Timestamp) : Prop where
  armed : ∀ d ∈ armedBudgets s.timings, (Deadline.after now d).elapsed now = false
  repetition : (Deadline.after now s.timings.retry).moment <
    (Deadline.after now s.timings.turn).moment
  cycle : s.endOfCycle now < (Deadline.after now s.timings.watchdog).moment

/-- The settings count nothing smaller than a millisecond. -/
def CountsMillis (s : Settings) : Prop :=
  ∀ d ∈ s.timings.answerJitter :: armedBudgets s.timings, d.IsWhole

/-- A timer has not fired when it is armed, if it waits for a millisecond. -/
theorem elapsed_after_self_iff (room : now.millis < Duration.maxMillis) :
    (Deadline.after now d).elapsed now = false ↔ 1 ≤ d.wholeMillis := by
  rw [Deadline.elapsed_after_eq_false_iff]
  omega

section Accepted

variable (accepted : s.check = .ok (.ok ()))

include accepted

/-- **Rounding down wait by wait** does not make a cycle longer than the patience of a listener. -/
theorem cycleMillis_le : s.cycleMillis ≤ s.timings.watchdog.wholeMillis := by
  obtain ⟨-, -, patient⟩ := order_of_check accepted
  have offers : (s.offerRetryLimit.toNat + 1) * s.timings.offerRetry.wholeMillis * 1000000 ≤
      s.timings.offerRetry.nanos * (s.offerRetryLimit.toNat + 1) := by
    rw [Nat.mul_assoc, Nat.mul_comm]
    exact Nat.mul_le_mul_right _ s.timings.offerRetry.wholeMillis_mul_le
  rw [Duration.le_wholeMillis_iff, cycleMillis, Nat.add_mul, Nat.add_mul]
  exact Nat.le_trans (Nat.add_le_add (Nat.add_le_add s.timings.turn.wholeMillis_mul_le offers)
    s.timings.answerJitter.wholeMillis_mul_le) (Nat.le_of_lt patient)

theorem retry_le : s.timings.retry.wholeMillis ≤ s.timings.turn.wholeMillis :=
  Duration.wholeMillis_mono (Nat.le_of_lt (order_of_check accepted).2.1)

/-- The turn is over before a listener loses patience. -/
theorem turn_le : s.timings.turn.wholeMillis ≤ s.timings.watchdog.wholeMillis := by
  have := cycleMillis_le accepted
  rw [cycleMillis] at this
  omega

variable (room : now.millis + s.timings.watchdog.wholeMillis < Duration.maxMillis)

include room

/-- **On the clock the first repetition is before the end of the turn exactly if it is so in whole
milliseconds.** -/
theorem repetition_iff : (Deadline.after now s.timings.retry).moment <
      (Deadline.after now s.timings.turn).moment ↔
    s.timings.retry.wholeMillis < s.timings.turn.wholeMillis := by
  have turn := turn_le accepted
  rw [Timestamp.lt_iff, Deadline.after, Deadline.after, Timestamp.millis_after,
    Timestamp.millis_after]
  omega

/-- **On the clock a turn cycle ends before the watchdog exactly if it does so in whole
milliseconds.** -/
theorem cycle_iff : s.endOfCycle now < (Deadline.after now s.timings.watchdog).moment ↔
    s.cycleMillis < s.timings.watchdog.wholeMillis := by
  have cycle := cycleMillis_le accepted
  rw [Timestamp.lt_iff, millis_endOfCycle, Deadline.after, Timestamp.millis_after]
  omega

/-- **Where nothing is rounded, the timers are in order.** -/
theorem inOrder_of_countsMillis (whole : s.CountsMillis) : s.InOrder now := by
  obtain ⟨filled, repeats, patient⟩ := order_of_check accepted
  have start : now.millis < Duration.maxMillis := by omega
  have needed : armedBudgets s.timings ⊆ (neededBudgets s.timings).map Prod.snd := by
    simp [armedBudgets, neededBudgets]
  obtain ⟨jitter, armed⟩ := List.forall_mem_cons.1 whole
  have turn := armed s.timings.turn (by simp [armedBudgets])
  have retry := armed s.timings.retry (by simp [armedBudgets])
  have offer := armed s.timings.offerRetry (by simp [armedBudgets])
  have watchdog := armed s.timings.watchdog (by simp [armedBudgets])
  refine ⟨fun d hd => (elapsed_after_self_iff start).2 ?_, (repetition_iff accepted room).2 ?_,
    (cycle_iff accepted room).2 ?_⟩
  · obtain ⟨b, hb, rfl⟩ := List.mem_map.1 (needed hd)
    have full := filled b hb
    rw [armed _ hd] at full
    exact Nat.one_le_iff_ne_zero.2 fun none => full (by rw [none, Nat.zero_mul])
  · rw [Duration.lt_iff, retry, turn] at repeats
    exact Nat.lt_of_mul_lt_mul_right repeats
  · have sum : s.cycleMillis * 1000000 = s.timings.turn.wholeMillis * 1000000 +
        s.timings.offerRetry.wholeMillis * 1000000 * (s.offerRetryLimit.toNat + 1) +
        s.timings.answerJitter.wholeMillis * 1000000 := by
      rw [cycleMillis, Nat.add_mul, Nat.add_mul, Nat.mul_comm (_ + 1), Nat.mul_right_comm]
    rw [turn, offer, jitter, watchdog, ← sum] at patient
    exact Nat.lt_of_mul_lt_mul_right patient

end Accepted

end Settings

/-- The settings of a deployment count milliseconds. -/
theorem Deployment.countsMillis_settings (d : Deployment) : d.settings.CountsMillis := by
  have millis (m : Nat) : (Duration.ofMillis m).IsWhole := Duration.isWhole_ofMillis m
  simp [Settings.CountsMillis, Settings.armedBudgets, Deployment.settings, millis]

/-- **What a file says of a node keeps its order on the clock.** -/
theorem Deployment.inOrder_settings (d : Deployment) {now : Timestamp}
    (accepted : d.settings.check = .ok (.ok ()))
    (room : now.millis + d.settings.timings.watchdog.wholeMillis < Duration.maxMillis) :
    d.settings.InOrder now :=
  Settings.inOrder_of_countsMillis accepted room d.countsMillis_settings

/-- **The order of the timers on a clock of milliseconds.**  Some settings have been accepted, and
the clock does not stop before a listener that starts to listen now loses patience.  Each timer of
the settings has not fired when it is armed exactly if it waits for a millisecond; a payload is
repeated before its turn is over exactly if the two differ in their whole milliseconds; and a cycle
of a turn, all offers to one successor and the longest delay of an answer, armed one after another,
is over before a listener loses patience exactly if its whole milliseconds, counted wait by wait, are
fewer.  In any case a payload is not repeated later than its turn is over, and a cycle does not take
longer than a listener is patient.  If the settings count nothing smaller than a millisecond, all of
it is in order. -/
theorem order_on_clock {s : Settings} {now : Timestamp} (accepted : s.check = .ok (.ok ()))
    (room : now.millis + s.timings.watchdog.wholeMillis < Duration.maxMillis) :
    (∀ d ∈ Settings.armedBudgets s.timings,
      ((Deadline.after now d).elapsed now = false ↔ 1 ≤ d.wholeMillis)) ∧
    ((Deadline.after now s.timings.retry).moment < (Deadline.after now s.timings.turn).moment ↔
      s.timings.retry.wholeMillis < s.timings.turn.wholeMillis) ∧
    (s.endOfCycle now < (Deadline.after now s.timings.watchdog).moment ↔
      s.cycleMillis < s.timings.watchdog.wholeMillis) ∧
    (Deadline.after now s.timings.retry).moment ≤ (Deadline.after now s.timings.turn).moment ∧
    s.endOfCycle now ≤ (Deadline.after now s.timings.watchdog).moment ∧
    (s.CountsMillis → s.InOrder now) := by
  have start : now.millis < Duration.maxMillis := by omega
  refine ⟨fun d _ => Settings.elapsed_after_self_iff start, Settings.repetition_iff accepted room,
    Settings.cycle_iff accepted room, ?_, ?_, Settings.inOrder_of_countsMillis accepted room⟩
  · have := Settings.retry_le accepted
    rw [Timestamp.le_iff, Deadline.after, Deadline.after, Timestamp.millis_after,
      Timestamp.millis_after]
    omega
  · have := Settings.cycleMillis_le accepted
    rw [Timestamp.le_iff, Settings.millis_endOfCycle, Deadline.after, Timestamp.millis_after]
    omega

/-- Node 1 has a turn of less than a millisecond, and is patient for a cycle and little more. -/
def hasty : Settings :=
  { node := ⟨1⟩
    roster := [⟨1⟩, ⟨2⟩]
    timings := {
      turn := ⟨900000, by decide⟩
      retry := ⟨500000, by decide⟩
      watchdog := ⟨6500950000, by decide⟩ } }

theorem accepted_hasty : hasty.check = .ok (.ok ()) := rfl

/-- **The timers of accepted settings may be out of order.**  The payload of the hasty node 1 is due
again as soon as its turn begins, its turn is over at that moment too, and a listener loses patience
just when a cycle is over.  Node 1 of a ring of three has all its timers in order. -/
theorem order_on_clock_of_hasty :
    (Deadline.after .zero hasty.timings.retry).elapsed .zero = true ∧
    ¬(Deadline.after .zero hasty.timings.retry).moment <
      (Deadline.after .zero hasty.timings.turn).moment ∧
    ¬hasty.endOfCycle .zero < (Deadline.after .zero hasty.timings.watchdog).moment ∧
    (Station.settingsOfThree ⟨1⟩).InOrder .zero := by
  have room : Timestamp.zero.millis + hasty.timings.watchdog.wholeMillis < Duration.maxMillis := by
    decide
  have room' : Timestamp.zero.millis +
      (Station.settingsOfThree ⟨1⟩).timings.watchdog.wholeMillis < Duration.maxMillis := by decide
  obtain ⟨armed, repetition, cycle, -⟩ := order_on_clock accepted_hasty room
  obtain ⟨-, -, -, -, -, ordered⟩ := order_on_clock rfl room'
  refine ⟨?_, mt repetition.1 (by decide), mt cycle.1 (by decide), ordered ?_⟩
  · have late := mt (armed hasty.timings.retry (by simp [Settings.armedBudgets])).1 (by decide)
    rwa [Bool.not_eq_false] at late
  · unfold Settings.CountsMillis Duration.IsWhole
    decide

/-- **Not all accepted settings are in order**, however far the clock is from its end. -/
theorem not_in_order : ¬∀ (s : Settings) (now : Timestamp), s.check = .ok (.ok ()) →
    now.millis + s.timings.watchdog.wholeMillis < Duration.maxMillis → s.InOrder now := by
  intro all
  have ordered := all hasty .zero accepted_hasty (by decide)
  have tied : ¬hasty.endOfCycle .zero < (Deadline.after .zero hasty.timings.watchdog).moment := by
    decide
  exact tied ordered.cycle

end RadioRing
