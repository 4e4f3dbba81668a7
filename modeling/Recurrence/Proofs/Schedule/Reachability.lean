import Recurrence.Proofs.Calendar.MonthDays
import Recurrence.Proofs.Rule.Settling
import Recurrence.Proofs.Schedule.Checks

namespace Recurrence

namespace Datum

/-- A value is a month when it is a number that equals the number of one. -/
theorem toMonth?_eq_some_iff {d : Datum} {month : Nat} :
    d.toMonth? = some month ↔ d.Equals month ∧ 1 ≤ month ∧ month ≤ 12 := by
  constructor
  · intro found
    have same := List.find?_some found
    have among := List.mem_range'_1.mp (List.mem_of_find?_eq_some found)
    exact ⟨eq_of_beq same, by omega, by omega⟩
  · rintro ⟨same, low, high⟩
    have known : d.toMonth? = (int month).toMonth? := by
      unfold toMonth?
      simp only [same.compareInt?, (equals_int.mpr rfl : (int month).Equals month).compareInt?]
    rw [known, toMonth?_int (by omega) (by omega), Int.toNat_natCast]

end Datum

namespace Date

theorem monthLength_le_longestMonth (year month : Nat) :
    monthLength year month ≤ longestMonth month := by
  unfold longestMonth monthLength
  split
  case h_2 => split <;> decide
  all_goals exact le_rfl

/-- Some year has a day in a month, counted from either end, when the month has as many days
where it is longest. -/
theorem exists_isDayOfMonth_iff {month : Nat} (low : 1 ≤ month) (high : month ≤ 12) {n : Int}
    (nonzero : n ≠ 0) :
    (∃ date : Date, date.isValid = true ∧ date.month = month ∧ date.IsDayOfMonth n) ↔
      n.natAbs ≤ longestMonth month := by
  constructor
  · rintro ⟨date, valid, rfl, day⟩
    obtain ⟨_, _, _, _, first, last⟩ := isValid_iff.mp valid
    have longest := monthLength_le_longestMonth date.year date.month
    rcases day with ⟨_, fromFirst⟩ | ⟨_, fromLast⟩ <;> omega
  · intro fits
    -- year four is a leap year, so that each month is as long in it as it ever is
    have longest : monthLength 4 month = longestMonth month := rfl
    have last : 4 ≤ lastYear := by decide
    rcases lt_or_gt_of_ne nonzero with negative | positive
    · refine ⟨⟨4, month, (longestMonth month + 1 + n).toNat⟩, isValid_iff.mpr ?_, rfl, .inr ?_⟩
      · dsimp only
        omega
      · dsimp only
        omega
    · refine ⟨⟨4, month, n.toNat⟩, isValid_iff.mpr ?_, rfl, .inl ?_⟩
      · dsimp only
        omega
      · dsimp only
        omega

end Date

namespace Schedule

variable {s : Schedule}

/-- Whether a date is in one of the months of a schedule and is one of its days of the month,
counted from either end of the month. -/
def Names (s : Schedule) (date : Date) : Prop :=
  (∃ d ∈ s.months, d.Equals date.month) ∧
    ∃ d ∈ s.monthDays, ∃ n, d.Equals n ∧ date.IsDayOfMonth n

/-- A day fits a known month when some date of the years is that day of that month. -/
theorem fitsMonth_iff_exists_date {d m : Datum} {n : Int} (same : d.Equals n) (nonzero : n ≠ 0)
    {month : Nat} (known : m.toMonth? = some month) :
    fitsMonth d m = .ok true ↔
      ∃ date : Date, date.isValid = true ∧ date.month = month ∧ date.IsDayOfMonth n := by
  obtain ⟨_, low, high⟩ := Datum.toMonth?_eq_some_iff.mp known
  rw [fitsMonth_of_equals same known, Except.ok.injEq, decide_eq_true_iff,
    Date.exists_isDayOfMonth_iff low high nonzero]
  omega

/-- The search finds a day in a month when there is a date that the schedule names. -/
theorem exists_fitsMonth_iff
    (known : ∀ d ∈ s.months, ∃ month, d.toMonth? = some month)
    (days : ∀ d ∈ s.monthDays, ∃ n : Int, d.Equals n ∧ n ≠ 0) :
    (∃ month ∈ s.months, ∃ day ∈ s.monthDays, fitsMonth day month = .ok true) ↔
      ∃ date : Date, date.isValid = true ∧ s.Names date := by
  constructor
  · rintro ⟨m, amongMonths, d, amongDays, fits⟩
    obtain ⟨month, found⟩ := known m amongMonths
    obtain ⟨sameMonth, _⟩ := Datum.toMonth?_eq_some_iff.mp found
    obtain ⟨n, same, nonzero⟩ := days d amongDays
    obtain ⟨date, valid, rfl, day⟩ := (fitsMonth_iff_exists_date same nonzero found).mp fits
    exact ⟨date, valid, ⟨m, amongMonths, sameMonth⟩, d, amongDays, n, same, day⟩
  · rintro ⟨date, valid, ⟨m, amongMonths, sameMonth⟩, d, amongDays, n, same, day⟩
    obtain ⟨_, _, low, high, _⟩ := Date.isValid_iff.mp valid
    obtain ⟨k, sameToo, nonzero⟩ := days d amongDays
    have found := Datum.toMonth?_eq_some_iff.mpr ⟨sameMonth, low, high⟩
    refine ⟨m, amongMonths, d, amongDays, ?_⟩
    rw [fitsMonth_iff_exists_date same (sameToo.unique same ▸ nonzero) found]
    exact ⟨date, valid, rfl, day⟩

/-- Months and days of the month that are whole numbers of their ranges are refused as
unreachable just when there are both and no date of the years one to 9999 is one of the days,
counted from either end, in one of the months. Otherwise they pass. The months are all known,
so that their lengths are. -/
theorem checkReachable_exact (months : s.PassesRange .month) (days : s.PassesRange .monthDay)
    (wholeMonths : ∀ d ∈ s.months, d.IsWhole) (wholeDays : ∀ d ∈ s.monthDays, d.IsWhole) :
    (∀ d ∈ s.months, ∃ month, d.toMonth? = some month) ∧
    (s.checkReachable = .error (.diagnostic (.unreachable s.monthDays s.months)) ↔
      s.months ≠ [] ∧ s.monthDays ≠ [] ∧ ¬∃ date : Date, date.isValid = true ∧ s.Names date) ∧
    (s.checkReachable = .ok () ↔
      s.months = [] ∨ s.monthDays = [] ∨ ∃ date : Date, date.isValid = true ∧ s.Names date) := by
  have known : ∀ d ∈ s.months, ∃ month, d.toMonth? = some month := by
    intro d member
    obtain ⟨n, same, low, high, _⟩ :=
      (checkRange_ok_iff_of_isWhole wholeMonths).mp (months _ _ _ rfl) d member
    refine ⟨n.toNat, Datum.toMonth?_eq_some_iff.mpr ⟨?_, by omega, by omega⟩⟩
    rwa [Int.toNat_of_nonneg (by omega)]
  have nonzero : ∀ d ∈ s.monthDays, ∃ n : Int, d.Equals n ∧ n ≠ 0 := by
    intro d member
    obtain ⟨n, same, _, _, nonzero⟩ :=
      (checkRange_ok_iff_of_isWhole wholeDays).mp (days _ _ _ rfl) d member
    exact ⟨n, same, nonzero.resolve_right Bool.false_ne_true⟩
  refine ⟨known, ?_⟩
  rw [← exists_fitsMonth_iff known nonzero]
  rcases checkReachable_cases wholeDays known with
    ⟨passed, reached⟩ | ⟨refused, someDays, someMonths, none⟩
  · rw [passed]
    refine ⟨iff_of_false (fun failed => nomatch failed) ?_, iff_of_true rfl (or_left_comm.mp reached)⟩
    rintro ⟨someMonths, someDays, none⟩
    exact reached.elim someDays fun rest => rest.elim someMonths none
  · rw [refused]
    refine ⟨iff_of_true rfl ⟨someMonths, someDays, none⟩, iff_of_false (fun made => nomatch made) ?_⟩
    rintro (noMonths | noDays | found)
    · exact someMonths noMonths
    · exact someDays noDays
    · exact none found

/-- A yearly schedule for days of February and April, where the latter is given as a float. -/
def shortMonths (days : List Int) : Schedule where
  frequency := .yearly
  interval := .int 1
  count := .none
  ends := none
  weekStart := .monday
  setPositions := []
  months := [.int 2, .float (.finite false 4 0)]
  monthDays := days.map Datum.int
  yearDays := []
  weekNumbers := []
  weekdays := []
  hours := []
  minutes := []
  seconds := []

theorem isWhole_shortMonths (days : List Int) :
    (∀ d ∈ (shortMonths days).months, d.IsWhole) ∧ ∀ d ∈ (shortMonths days).monthDays, d.IsWhole := by
  constructor
  · rintro d (_ | ⟨_, _ | ⟨_, ⟨⟩⟩⟩)
    · exact ⟨2, rfl⟩
    · exact ⟨4, rfl⟩
  · intro d member
    obtain ⟨n, _, rfl⟩ := List.mem_map.mp member
    exact ⟨n, Datum.equals_int.mpr rfl⟩

theorem passesRange_shortMonths (days : List Int)
    (within : checkRange .monthDay (-31) 31 false (days.map Datum.int) = .ok ()) :
    (shortMonths days).PassesRange .month ∧ (shortMonths days).PassesRange .monthDay := by
  constructor
  · rintro _ _ _ ⟨⟩
    rfl
  · rintro _ _ _ ⟨⟩
    exact within

/-- Neither month has a thirty-first day, from whichever end it is counted. The thirtieth day from
the end is the first of April. -/
theorem checkReachable_exact_shortMonths :
    let refused := shortMonths [31, -31]
    let passed := shortMonths [31, -30]
    refused.checkReachable =
        .error (.diagnostic (.unreachable refused.monthDays refused.months)) ∧
      (¬∃ date : Date, date.isValid = true ∧ refused.Names date) ∧
      passed.Names ⟨2025, 4, 1⟩ ∧ passed.checkReachable = .ok () := by
  intro refused passed
  have unreachable : refused.checkReachable =
      .error (.diagnostic (.unreachable refused.monthDays refused.months)) := rfl
  have april : passed.Names ⟨2025, 4, 1⟩ :=
    ⟨⟨_, .tail _ (.head _), rfl⟩, _, .tail _ (.head _), -30, Datum.equals_int.mpr rfl, .inr (by decide)⟩
  obtain ⟨months, days⟩ := passesRange_shortMonths [31, -31] rfl
  obtain ⟨wholeMonths, wholeDays⟩ := isWhole_shortMonths [31, -31]
  obtain ⟨_, exact, _⟩ := checkReachable_exact months days wholeMonths wholeDays
  obtain ⟨months, days⟩ := passesRange_shortMonths [31, -30] rfl
  obtain ⟨wholeMonths, wholeDays⟩ := isWhole_shortMonths [31, -30]
  obtain ⟨_, _, passes⟩ := checkReachable_exact months days wholeMonths wholeDays
  exact ⟨unreachable, (exact.mp unreachable).2.2, april, passes.mpr (.inr (.inr ⟨_, rfl, april⟩))⟩

end Schedule

end Recurrence
