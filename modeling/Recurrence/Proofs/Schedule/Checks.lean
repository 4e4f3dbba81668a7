import Recurrence.Proofs.Schedule.Ranges
import Recurrence.Proofs.Schedule.Soundness

namespace Recurrence.Schedule

variable {s : Schedule} {start : Timestamp}

/-- The list parts fit the frequency when each of them does, and so does every weekday. -/
theorem checkFrequencyParts_ok_iff :
    s.checkFrequencyParts = .ok () ↔
      (s.weekNumbers ≠ [] → s.frequency = .yearly) ∧
      (s.yearDays ≠ [] → s.frequency ∉ [.daily, .weekly, .monthly]) ∧
      (s.monthDays ≠ [] → s.frequency ≠ .weekly) ∧
      ∀ choice ∈ s.weekdays, s.checkChoice choice = .ok () := by
  refine ⟨checkFrequencyParts_ok, ?_⟩
  rintro ⟨weekNumbers, yearDays, monthDays, choices⟩
  unfold checkFrequencyParts
  dsimp only
  split
  · rename_i refused
    simp only [Bool.and_eq_true, Bool.not_eq_true', List.isEmpty_eq_false_iff, bne_iff_ne] at refused
    exact absurd (weekNumbers refused.1) refused.2
  · split
    · rename_i refused
      simp only [Bool.and_eq_true, Bool.not_eq_true', List.isEmpty_eq_false_iff,
        List.contains_iff_mem] at refused
      exact absurd refused.2 (yearDays refused.1)
    · split
      · rename_i refused
        simp only [Bool.and_eq_true, Bool.not_eq_true', List.isEmpty_eq_false_iff,
          beq_iff_eq] at refused
        exact absurd refused.2 (monthDays refused.1)
      · exact Outcome.forM_eq_ok.mpr choices

/-- A schedule passes its check when it passes all stages of it. -/
theorem check_ok_iff :
    s.check start = .ok () ↔
      s.checkRanges = .ok () ∧ s.checkFrequencyParts = .ok () ∧
      (s.setPositions ≠ [] → s.hasListPart = true) ∧
      (∀ t, s.ends = some t → s.count = .none ∧ start.instant ≤ t.instant) ∧
      s.checkReachable = .ok () := by
  constructor
  · intro checked
    obtain ⟨parts, positions, ends⟩ := check_ok checked
    unfold check at checked
    obtain ⟨ranges, checked⟩ := Outcome.then_eq_ok.mp checked
    obtain ⟨_, checked⟩ := Outcome.then_eq_ok.mp checked
    refine ⟨ranges, parts, positions, ends, ?_⟩
    dsimp only at checked
    split at checked
    · cases checked
    · split at checked
      · exact checked
      · split at checked
        · cases checked
        · split at checked
          · cases checked
          · exact checked
  · rintro ⟨ranges, parts, positions, ends, reachable⟩
    unfold check
    rw [ranges, parts]
    dsimp only [bind, Except.bind]
    split
    · rename_i refused
      simp only [Bool.and_eq_true, Bool.not_eq_true', List.isEmpty_eq_false_iff] at refused
      have listed := positions refused.1
      rw [refused.2] at listed
      cases listed
    · split
      · exact reachable
      · rename_i last given
        obtain ⟨uncounted, later⟩ := ends last given
        rw [if_neg (by simpa using uncounted), if_neg (Int.not_lt.mpr later)]
        exact reachable

section Reach

variable {days months : List Datum}

/-- Whether a whole number is a day of a known month is decided by the length of the month. -/
theorem fitsMonth_of_equals {day month : Datum} {n : Int} {m : Nat} (same : day.Equals n)
    (known : month.toMonth? = some m) : fitsMonth day month =
      .ok (decide (-(Date.longestMonth m : Int) ≤ n ∧ n ≤ Date.longestMonth m)) := by
  unfold fitsMonth
  rw [known]
  cases number : day.asNumber? with
  | none =>
    unfold Datum.Equals Datum.compareInt? at same
    rw [number] at same
    cases same
  | some value => exact isWithin_of_equals same ..

/-- The search for a day that fits a known month looks at all days, as long as they are whole
numbers. -/
theorem anyFits_ok (whole : ∀ d ∈ days, d.IsWhole) {month : Datum} {m : Nat}
    (known : month.toMonth? = some m) :
    ∃ found, anyFits month days = .ok found ∧
      (found = true ↔ ∃ day ∈ days, fitsMonth day month = .ok true) := by
  induction days with
  | nil => exact ⟨false, rfl, by simp⟩
  | cons day days ih =>
    obtain ⟨⟨n, same⟩, later⟩ := List.forall_mem_cons.mp whole
    obtain ⟨found, rest, iff⟩ := ih later
    have here := fitsMonth_of_equals same known
    unfold anyFits
    rw [here]
    generalize decide (-(Date.longestMonth m : Int) ≤ n ∧ n ≤ Date.longestMonth m) = fits at here
    cases fits with
    | true => exact ⟨true, rfl, by simp [here]⟩
    | false => exact ⟨found, rest, by simp [here, iff]⟩

theorem anyMonthFits_ok (whole : ∀ d ∈ days, d.IsWhole)
    (known : ∀ d ∈ months, ∃ month, d.toMonth? = some month) :
    ∃ found, anyMonthFits days months = .ok found ∧
      (found = true ↔ ∃ month ∈ months, ∃ day ∈ days, fitsMonth day month = .ok true) := by
  induction months with
  | nil => exact ⟨false, rfl, by simp⟩
  | cons month months ih =>
    obtain ⟨⟨m, isMonth⟩, later⟩ := List.forall_mem_cons.mp known
    obtain ⟨found, rest, iff⟩ := ih later
    obtain ⟨fits, here, fitsIff⟩ := anyFits_ok whole isMonth
    unfold anyMonthFits
    rw [here]
    cases fits with
    | true => exact ⟨true, rfl, by simpa using .inl (fitsIff.mp rfl)⟩
    | false =>
      have nothing := mt fitsIff.mpr Bool.false_ne_true
      refine ⟨found, rest, ?_⟩
      rw [iff, List.exists_mem_cons_iff, or_iff_right nothing]

variable (whole : ∀ d ∈ s.monthDays, d.IsWhole)
  (known : ∀ d ∈ s.months, ∃ month, d.toMonth? = some month)
include whole known

/-- Days of the month can be reached when one of the months has one of them, and are refused
otherwise. -/
theorem checkReachable_cases :
    (s.checkReachable = .ok () ∧ (s.monthDays = [] ∨ s.months = [] ∨
        ∃ month ∈ s.months, ∃ day ∈ s.monthDays, fitsMonth day month = .ok true)) ∨
      s.checkReachable = .error (.diagnostic (.unreachable s.monthDays s.months)) ∧
        s.monthDays ≠ [] ∧ s.months ≠ [] ∧
        ¬∃ month ∈ s.months, ∃ day ∈ s.monthDays, fitsMonth day month = .ok true := by
  obtain ⟨found, search, iff⟩ := anyMonthFits_ok whole known
  unfold checkReachable
  rw [← iff, search]
  dsimp only [bind, Except.bind]
  split
  · rename_i nothing
    simp only [Bool.or_eq_true, List.isEmpty_iff] at nothing
    exact .inl ⟨rfl, nothing.elim .inl fun empty => .inr (.inl empty)⟩
  · rename_i given
    simp only [Bool.or_eq_true, List.isEmpty_iff, not_or] at given
    cases found with
    | true => exact .inl ⟨rfl, .inr (.inr rfl)⟩
    | false => exact .inr ⟨rfl, given.1, given.2, Bool.false_ne_true⟩

theorem checkReachable_ok_iff :
    s.checkReachable = .ok () ↔ s.monthDays = [] ∨ s.months = [] ∨
      ∃ month ∈ s.months, ∃ day ∈ s.monthDays, fitsMonth day month = .ok true := by
  rcases checkReachable_cases whole known with ⟨passed, reached⟩ | ⟨refused, days, months, none⟩
  · exact iff_of_true passed reached
  · rw [refused]
    exact iff_of_false (fun made => nomatch made) (not_or.mpr ⟨days, not_or.mpr ⟨months, none⟩⟩)

theorem checkReachable_ne_fault (cause : Fault) : s.checkReachable ≠ .error (.fault cause) := by
  rcases checkReachable_cases whole known with ⟨passed, _⟩ | ⟨refused, _⟩
  · rw [passed]
    exact fun failed => nomatch failed
  · rw [refused]
    exact fun failed => nomatch failed

end Reach

section NoFault

/-- Integers can be compared with the limit of the ordinals. -/
theorem checkChoice_ne_fault {choice : DayChoice}
    (integer : ∀ ordinal day, choice = .nth ordinal day → ∃ n, ordinal = .int n) (cause : Fault) :
    s.checkChoice choice ≠ .error (.fault cause) := by
  cases choice with
  | every day => exact fun failed => nomatch failed
  | nth ordinal day =>
    obtain ⟨n, rfl⟩ := integer ordinal day rfl
    have compared (bound : Int) : (Datum.int n).compareInt? bound = some (some (compare n bound)) := rfl
    unfold checkChoice
    dsimp only
    split
    · exact fun failed => nomatch failed
    · split
      · exact fun failed => nomatch failed
      · rw [compared, compared]
        dsimp only
        split <;> exact fun failed => nomatch failed

theorem checkFrequencyParts_ne_fault
    (integers : ∀ ordinal day, .nth ordinal day ∈ s.weekdays → ∃ n, ordinal = .int n)
    (cause : Fault) : s.checkFrequencyParts ≠ .error (.fault cause) := by
  intro failed
  unfold checkFrequencyParts at failed
  dsimp only at failed
  split at failed
  · cases failed
  · split at failed
    · cases failed
    · split at failed
      · cases failed
      · obtain ⟨choice, member, failed⟩ := Outcome.exists_of_forM_eq_error failed
        refine checkChoice_ne_fault (fun ordinal day same => ?_) cause failed
        exact integers ordinal day (same ▸ member)

/-- A schedule of integers that are of their ranges, with months that are known, passes its check
or is refused with a diagnostic. -/
theorem check_ne_fault (ranges : s.checkRanges = .ok ())
    (ordinals : ∀ ordinal day, .nth ordinal day ∈ s.weekdays → ∃ n, ordinal = .int n)
    (days : ∀ d ∈ s.monthDays, ∃ n, d = .int n)
    (known : ∀ d ∈ s.months, ∃ month, d.toMonth? = some month) (cause : Fault) :
    s.check start ≠ .error (.fault cause) := by
  have whole : ∀ d ∈ s.monthDays, d.IsWhole := fun d member => Datum.isWhole_of_int (days d member)
  intro failed
  unfold check at failed
  rw [ranges] at failed
  obtain failed | ⟨_, _, failed⟩ := Outcome.bind_eq_error.mp failed
  · cases failed
  obtain failed | ⟨_, _, failed⟩ := Outcome.bind_eq_error.mp failed
  · exact checkFrequencyParts_ne_fault ordinals cause failed
  dsimp only at failed
  split at failed
  · cases failed
  · split at failed
    · exact checkReachable_ne_fault whole known cause failed
    · split at failed
      · cases failed
      · split at failed
        · cases failed
        · exact checkReachable_ne_fault whole known cause failed

end NoFault

end Recurrence.Schedule
