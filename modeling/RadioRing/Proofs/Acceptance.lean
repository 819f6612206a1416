import Mathlib.Data.List.Enum
import RadioRing.Settings

/-!
# Proofs/Acceptance — which settings are accepted, and what is wrong with the others

The rules for settings stand in a row (`Settings.rules`), each for itself and with the error that
tells that it is broken.  A check `Judges` rules if it accepts where all are kept, and otherwise
blames the first broken one; so does the check of the settings (`Settings.judges_check`), rule by
rule and one part after the other.  Hence it accepts whatever keeps all rules, in which nothing is
left of their order (`Settings.Acceptable`).  **No rule is about the wait for a frame to leave the
radio**, so that settings are accepted which are not as they should be (`acceptance`).
-/

namespace RadioRing

/-- A rule for settings, and the error that tells that it is broken. -/
structure Rule where
  kept : Prop
  error : SettingsError

/-- The error tells a broken rule, and every rule before that is kept. -/
def Blames (rules : List Rule) (e : SettingsError) : Prop :=
  ∃ before rule after, rules = before ++ rule :: after ∧ (∀ r ∈ before, r.kept) ∧ ¬rule.kept ∧
    rule.error = e

/-- The result of a check is right for the rules. -/
def Judges (rules : List Rule) : Except SettingsError Unit → Prop
  | .ok () => ∀ r ∈ rules, r.kept
  | .error e => Blames rules e

section Judges

variable {xs ys : List Rule} {rule : Rule} {e e' : SettingsError}
  {result result' : Except SettingsError Unit}

/-! ## Rules one after another -/

theorem not_blames_nil : ¬Blames [] e := fun ⟨before, rule, after, h, _⟩ =>
  List.append_ne_nil_of_right_ne_nil before (List.cons_ne_nil rule after) h.symm

/-- The first rule is to blame if it is broken, and otherwise the rest decides. -/
theorem blames_cons :
    Blames (rule :: xs) e ↔ ¬rule.kept ∧ rule.error = e ∨ rule.kept ∧ Blames xs e := by
  constructor
  · rintro ⟨before, broken, after, h, kept, hbroken, he⟩
    cases before with
    | nil =>
      obtain ⟨rfl, rfl⟩ := List.cons.inj h
      exact Or.inl ⟨hbroken, he⟩
    | cons first before =>
      obtain ⟨rfl, rfl⟩ := List.cons.inj h
      obtain ⟨hfirst, kept⟩ := List.forall_mem_cons.1 kept
      exact Or.inr ⟨hfirst, before, broken, after, rfl, kept, hbroken, he⟩
  · rintro (⟨hbroken, he⟩ | ⟨hkept, before, broken, after, rfl, kept, hbroken, he⟩)
    · exact ⟨[], rule, xs, rfl, List.forall_mem_nil _, hbroken, he⟩
    · exact ⟨rule :: before, broken, after, rfl, List.forall_mem_cons.2 ⟨hkept, kept⟩, hbroken, he⟩

theorem Blames.not_kept (h : Blames xs e) : ¬∀ r ∈ xs, r.kept := by
  obtain ⟨before, rule, after, rfl, -, hbroken, -⟩ := h
  exact fun kept => hbroken (kept rule (List.mem_append_right _ List.mem_cons_self))

/-- **Only one error can be to blame.** -/
theorem Blames.unique (h : Blames xs e) (h' : Blames xs e') : e = e' := by
  induction xs with
  | nil => exact absurd h not_blames_nil
  | cons rule xs ih =>
    rcases blames_cons.1 h with ⟨hbroken, rfl⟩ | ⟨hkept, h⟩
    · rcases blames_cons.1 h' with ⟨-, rfl⟩ | ⟨hkept, -⟩
      · rfl
      · exact absurd hkept hbroken
    · rcases blames_cons.1 h' with ⟨hbroken, -⟩ | ⟨-, h'⟩
      · exact absurd hkept hbroken
      · exact ih h h'

namespace Judges

/-- **A check that judges rules accepts exactly what keeps all of them.** -/
theorem eq_ok_iff (h : Judges xs result) : result = .ok () ↔ ∀ r ∈ xs, r.kept := by
  cases result with
  | ok _ => exact iff_of_true rfl h
  | error e => exact iff_of_false nofun (Blames.not_kept h)

/-- **It fails exactly with the error of the first broken rule.** -/
theorem eq_error_iff (h : Judges xs result) : result = .error e ↔ Blames xs e := by
  cases result with
  | ok _ => exact iff_of_false nofun fun hblames => hblames.not_kept h
  | error e' =>
    constructor
    · intro he
      rwa [← Except.error.inj he]
    · intro hblames
      rw [hblames.unique h]

theorem nil : Judges [] (.ok ()) := List.forall_mem_nil _

/-- **A check that looks at one more condition first judges one more rule.** -/
theorem cons {broken : Prop} [Decidable broken] (rule : Rule) (hrule : rule.kept ↔ ¬broken)
    (h : Judges xs result) :
    Judges (rule :: xs) (if broken then .error rule.error else result) := by
  split
  · rename_i hbroken
    exact blames_cons.2 (Or.inl ⟨fun hkept => hrule.1 hkept hbroken, rfl⟩)
  · rename_i hkept
    cases result with
    | ok _ => exact List.forall_mem_cons.2 ⟨hrule.2 hkept, h⟩
    | error e => exact blames_cons.2 (Or.inr ⟨hrule.2 hkept, h⟩)

/-- **A check that goes on with another one judges the rules of both.** -/
theorem seq (h : Judges xs result) (h' : Judges ys result') :
    Judges (xs ++ ys) (result >>= fun _ => result') := by
  cases result with
  | error e =>
    obtain ⟨before, rule, after, rfl, kept, hbroken, he⟩ := h
    exact ⟨before, rule, after ++ ys, List.append_assoc .., kept, hbroken, he⟩
  | ok _ =>
    cases result' with
    | ok _ => exact List.forall_mem_append.2 ⟨h, h'⟩
    | error e =>
      obtain ⟨before, rule, after, rfl, kept, hbroken, he⟩ := h'
      exact ⟨xs ++ before, rule, after, (List.append_assoc ..).symm,
        List.forall_mem_append.2 ⟨h, kept⟩, hbroken, he⟩

end Judges

end Judges

namespace Settings

variable {s : Settings} {cycle : Duration}

/-! ## The rules for settings -/

/-- The rules for the addresses of a roster, one address after the other: it stands for a single
node, and it has not stood further in front. -/
def addressRules (roster : List Address) : List Rule :=
  roster.zipIdx.flatMap fun x =>
    [⟨x.1 ≠ .everyone, .everyoneInRoster⟩, ⟨x.1 ∉ roster.take x.2, .duplicateNode x.1⟩]

/-- The rules for the budgets that may not be empty. -/
def budgetRules (budgets : List (String × Duration)) : List Rule :=
  budgets.map fun b => ⟨b.2 ≠ .zero, .zeroDuration b.1⟩

/-- The rules that stand before any sum of durations is taken. -/
def partRules (s : Settings) : List Rule :=
  ⟨s.roster ≠ [], .emptyRoster⟩ ::
    ⟨s.roster.length ≤ maxRoster, .rosterTooLarge maxRoster s.roster.length⟩ ::
    (addressRules s.roster ++ ⟨s.node ∈ s.roster, .selfNotInRoster s.node⟩ ::
      (budgetRules (neededBudgets s.timings) ++
        [⟨s.timings.retry < s.timings.turn,
          .retryExceedsTurn s.timings.retry.wholeMillis s.timings.turn.wholeMillis⟩]))

/-- The rules for settings with this turn cycle, in the order in which they are looked at. -/
def rules (s : Settings) (cycle : Duration) : List Rule :=
  s.partRules ++ [⟨cycle < s.timings.watchdog,
    .watchdogTooShort s.timings.watchdog.wholeMillis cycle.wholeMillis⟩]

/-- The check of a roster judges, address by address, that it is a single node and stands there
once. -/
theorem judges_checkAddresses (roster : List Address) :
    Judges (addressRules roster) (checkAddresses [] roster) := by
  suffices hrest : ∀ rest before, Judges ((rest.zipIdx before.length).flatMap fun x =>
      [⟨x.1 ≠ .everyone, .everyoneInRoster⟩,
        ⟨x.1 ∉ (before.reverse ++ rest).take x.2, .duplicateNode x.1⟩])
      (checkAddresses before rest) from hrest roster []
  -- The loop keeps the addresses that it has passed, the last one first.
  intro rest
  induction rest with
  | nil =>
    intro before
    exact .nil
  | cons a rest ih =>
    intro before
    have hnext := ih (a :: before)
    rw [List.reverse_cons, List.append_assoc, List.singleton_append] at hnext
    have hsingle : a ≠ .everyone ↔ ¬a.isEveryone = true := by simp [Address.isEveryone]
    have honce : a ∉ (before.reverse ++ a :: rest).take before.length ↔ ¬a ∈ before := by
      rw [List.take_left' List.length_reverse, List.mem_reverse]
    exact (hnext.cons ⟨_, .duplicateNode a⟩ honce).cons ⟨_, .everyoneInRoster⟩ hsingle

/-- The check of the budgets judges that none of them is empty. -/
theorem judges_checkBudgets (budgets : List (String × Duration)) :
    Judges (budgetRules budgets) (checkBudgets budgets) := by
  induction budgets with
  | nil => exact .nil
  | cons b rest ih =>
    have hfilled : b.2 ≠ .zero ↔ ¬b.2.isZero = true := by
      simp [Duration.isZero, Duration.ext_iff]
    exact ih.cons ⟨_, .zeroDuration b.1⟩ hfilled

/-- The rules before the turn cycle, one after the other. -/
theorem checkParts_eq (s : Settings) : s.checkParts =
    if s.roster.isEmpty then .error .emptyRoster
    else if maxRoster < s.roster.length then .error (.rosterTooLarge maxRoster s.roster.length)
    else checkAddresses [] s.roster >>= fun _ =>
      if s.node ∉ s.roster then .error (.selfNotInRoster s.node)
      else checkBudgets (neededBudgets s.timings) >>= fun _ =>
        if s.timings.turn ≤ s.timings.retry then
          .error (.retryExceedsTurn s.timings.retry.wholeMillis s.timings.turn.wholeMillis)
        else .ok () := by
  rfl

/-- What is checked before any sum is taken judges the rules of each part in turn. -/
theorem judges_checkParts (s : Settings) : Judges s.partRules s.checkParts := by
  rw [checkParts_eq]
  have hpopulated : s.roster ≠ [] ↔ ¬s.roster.isEmpty = true := not_congr List.isEmpty_iff.symm
  have hown : s.node ∈ s.roster ↔ ¬s.node ∉ s.roster := Decidable.not_not.symm
  have hrepeated : s.timings.retry < s.timings.turn ↔ ¬s.timings.turn ≤ s.timings.retry :=
    Nat.not_le.symm
  have hlast := Judges.nil.cons ⟨_, .retryExceedsTurn s.timings.retry.wholeMillis
    s.timings.turn.wholeMillis⟩ hrepeated
  have hbudgets := (judges_checkBudgets (neededBudgets s.timings)).seq hlast
  have haddresses := (judges_checkAddresses s.roster).seq
    (hbudgets.cons ⟨_, .selfNotInRoster s.node⟩ hown)
  exact (haddresses.cons ⟨_, .rosterTooLarge maxRoster s.roster.length⟩ Nat.not_lt.symm).cons
    ⟨_, .emptyRoster⟩ hpopulated

theorem check_eq (told : s.turnCycle? = some cycle) :
    s.check = .ok (s.checkParts >>= fun _ =>
      if s.timings.watchdog ≤ cycle then
        .error (.watchdogTooShort s.timings.watchdog.wholeMillis cycle.wholeMillis)
      else .ok ()) := by
  unfold check
  rw [told]
  cases s.checkParts with
  | error e => rfl
  | ok u => exact (apply_ite Except.ok ..).symm

/-- **The check judges the rules for settings.** -/
theorem judges_check (told : s.turnCycle? = some cycle) :
    ∃ result, s.check = .ok result ∧ Judges (s.rules cycle) result := by
  have hpatience : cycle < s.timings.watchdog ↔ ¬s.timings.watchdog ≤ cycle :=
    Nat.not_le.symm
  have hlast := Judges.nil.cons
    ⟨_, .watchdogTooShort s.timings.watchdog.wholeMillis cycle.wholeMillis⟩ hpatience
  exact ⟨_, check_eq told, (judges_checkParts s).seq hlast⟩

/-! ## What keeps all rules -/

/-- The settings are as the check wants them. -/
structure Acceptable (s : Settings) (cycle : Duration) : Prop where
  populated : s.roster ≠ []
  small : s.roster.length ≤ maxRoster
  distinct : s.roster.Nodup
  single : .everyone ∉ s.roster
  listed : s.node ∈ s.roster
  filled : ∀ d ∈ [s.timings.turn, s.timings.retry, s.timings.joinResend, s.timings.offerRetry,
    s.timings.watchdog, s.timings.poll], d ≠ .zero
  repeated : s.timings.retry < s.timings.turn
  patient : cycle < s.timings.watchdog

/-- The settings are as they should be. -/
structure Documented (s : Settings) (cycle : Duration) : Prop extends s.Acceptable cycle where
  sent : s.timings.sendComplete ≠ .zero

/-- Settings are as they should be if they are acceptable and the wait for a frame is not empty. -/
theorem documented_iff : s.Documented cycle ↔ s.Acceptable cycle ∧ s.timings.sendComplete ≠ .zero :=
  ⟨fun h => ⟨h.toAcceptable, h.sent⟩, fun ⟨h, hsent⟩ => ⟨h, hsent⟩⟩

/-- No address has stood further in front if all are distinct. -/
theorem nodup_iff_not_mem_take {roster : List Address} :
    roster.Nodup ↔ ∀ i (h : i < roster.length), roster[i] ∉ roster.take i := by
  simp only [List.Nodup, List.pairwise_iff_getElem, List.mem_take_iff_getElem, not_exists]
  constructor
  · intro h i hi j hj
    exact h j i (Nat.lt_min.1 hj).2 hi (Nat.lt_min.1 hj).1
  · intro h j i hj hi hji
    exact h i hi j (Nat.lt_min.2 ⟨hji, hj⟩)

/-- **Nothing is left of the order of the rules for addresses**: nobody is everyone, and nobody
stands twice. -/
theorem addressRules_kept_iff {roster : List Address} :
    (∀ r ∈ addressRules roster, r.kept) ↔ .everyone ∉ roster ∧ roster.Nodup := by
  have hrules : (∀ r ∈ addressRules roster, r.kept) ↔
      ∀ x ∈ roster.zipIdx, x.1 ≠ .everyone ∧ x.1 ∉ roster.take x.2 := by
    simp only [addressRules, List.forall_mem_flatMap, List.forall_mem_cons, List.not_mem_nil,
      false_implies, implies_true, and_true]
  rw [hrules, List.forall_mem_zipIdx', nodup_iff_not_mem_take, ← List.forall_mem_ne',
    List.forall_mem_iff_getElem]
  simp only [← forall_and]

/-- The rules for budgets ask that none of them is zero. -/
theorem budgetRules_kept_iff {budgets : List (String × Duration)} :
    (∀ r ∈ budgetRules budgets, r.kept) ↔ ∀ d ∈ budgets.map Prod.snd, d ≠ .zero := by
  rw [budgetRules, List.forall_mem_map, List.forall_mem_map]

/-- **Nothing is left of the order of the rules where all are kept.** -/
theorem acceptable_iff : s.Acceptable cycle ↔ ∀ r ∈ s.rules cycle, r.kept := by
  unfold rules partRules
  simp only [List.forall_mem_append, List.forall_mem_cons, List.not_mem_nil, false_implies,
    implies_true, and_true, addressRules_kept_iff, budgetRules_kept_iff]
  constructor
  · rintro ⟨hpopulated, hsmall, hdistinct, hsingle, hlisted, hfilled, hrepeated, hpatient⟩
    exact ⟨⟨hpopulated, hsmall, ⟨hsingle, hdistinct⟩, hlisted, hfilled, hrepeated⟩, hpatient⟩
  · rintro ⟨⟨hpopulated, hsmall, ⟨hsingle, hdistinct⟩, hlisted, hfilled, hrepeated⟩, hpatient⟩
    exact ⟨hpopulated, hsmall, hdistinct, hsingle, hlisted, hfilled, hrepeated, hpatient⟩

end Settings

open Settings

/-- **Settings are accepted just if they keep eight rules, and the first broken rule is to blame
otherwise.**  The check of settings whose turn cycle can be told always comes to an end.  It accepts
a roster that is populated, not too large, without repetitions and without the address of all nodes,
that lists the node, with budgets that are not empty, a repetition within the turn and a watchdog
beyond the cycle; otherwise it tells the error of the first rule, in the order of `Settings.rules`,
that is not kept.  It does not look at the wait for a frame to leave the radio: accepted settings
are as they should be if that wait is not empty, and only then. -/
theorem acceptance {s : Settings} {cycle : Duration} (told : s.turnCycle? = some cycle) :
    (∃ result, s.check = .ok result) ∧
      (s.check = .ok (.ok ()) ↔ s.Acceptable cycle) ∧
      (∀ e, s.check = .ok (.error e) ↔ Blames (s.rules cycle) e) ∧
      (s.Documented cycle ↔ s.check = .ok (.ok ()) ∧ s.timings.sendComplete ≠ .zero) := by
  obtain ⟨result, hresult, hjudges⟩ := judges_check told
  have haccepts : s.check = .ok (.ok ()) ↔ s.Acceptable cycle := by
    rw [hresult, Except.ok.injEq, acceptable_iff]
    exact hjudges.eq_ok_iff
  refine ⟨⟨result, hresult⟩, haccepts, fun e => ?_, ?_⟩
  · rw [hresult, Except.ok.injEq]
    exact hjudges.eq_error_iff
  · rw [haccepts]
    exact documented_iff

/-- Settings of node 1, with much wrong in them. -/
def muddled : Settings :=
  { node := ⟨1⟩, roster := [⟨2⟩, .everyone, ⟨2⟩], timings.turn := .zero, timings.watchdog := .zero }

/-- **The address of all nodes is to blame**: the roster has a place for it, and node 2 may stand in
front of it. -/
theorem acceptance_of_muddled : muddled.turnCycle? = some (.ofMillis 6500) ∧
    muddled.check = .ok (.error .everyoneInRoster) := by
  have told : muddled.turnCycle? = some (.ofMillis 6500) := by decide
  refine ⟨told, ((acceptance told).2.2.1 _).2 ⟨[_, _, _, _], _, _, rfl, ?_, fun h => h rfl, rfl⟩⟩
  rw [List.forall_mem_cons, List.forall_mem_cons, List.forall_mem_cons, List.forall_mem_singleton]
  decide

/-- Settings of node 1 of two, which does not wait for its frames to leave the radio. -/
def careless : Settings :=
  { node := ⟨1⟩, roster := [⟨1⟩, ⟨2⟩], timings.sendComplete := .zero }

/-- **Settings are accepted that are not as they should be**: the wait of `careless` is empty. -/
theorem not_documented : ¬∀ (s : Settings) (cycle : Duration), s.turnCycle? = some cycle →
    (s.check = .ok (.ok ()) ↔ s.Documented cycle) := by
  intro h
  have told : careless.turnCycle? = some (.ofMillis 14500) := by decide
  exact ((h careless _ told).1 (by decide)).sent rfl

end RadioRing
