import Recurrence.Proofs.Calendar.MonthDays
import Recurrence.Proofs.Series.YearTable

namespace Recurrence.Series

variable {s : Series} {year month first last i : Nat} {n : Int} {day : Weekday}

theorem weekdayAt_add (year i : Nat) :
    weekdayAt year i = Weekday.indexOfNumber (Date.daysBeforeYear year + 1 + i) := by
  unfold weekdayAt YearWeeks.newYear Weekday.indexOfNumber
  omega

/-- A positive ordinal finds the day of the wanted weekday in the n-th seven days of
the stretch, a negative one in the n-th seven days from its end. -/
theorem ordinalDay_eq_some_iff (nonzero : n ≠ 0)
    (fits : ∃ found, ordinalDay year first last n day = .ok found) :
    ordinalDay year first last n day = .ok (some i) ↔
      first ≤ i ∧ i ≤ last ∧ weekdayAt year i = day.index ∧
        if 0 < n then first + (n - 1) * 7 ≤ (i : Int) ∧ (i : Int) < first + n * 7
        else last + n * 7 < (i : Int) ∧ (i : Int) ≤ last + (n + 1) * 7 := by
  have week : day.index < 7 := by cases day <;> decide
  rw [ordinalDay_ok_iff] at fits
  unfold ordinalDay
  dsimp only
  by_cases negative : n < 0
  · have known := fits.1 negative
    have notPositive : ¬0 < n := Int.not_lt.mpr (Int.le_of_lt negative)
    rw [if_pos negative, if_neg (Int.not_lt.mpr known), if_neg notPositive]
    by_cases before : (last : Int) + (n + 1) * 7 < 0
    · rw [if_pos before]
      refine iff_of_false (fun found => nomatch found) ?_
      rintro ⟨_, _, _, _, high⟩
      omega
    · obtain ⟨base, same⟩ : ∃ base : Nat, (last : Int) + (n + 1) * 7 = base :=
        ⟨((last : Int) + (n + 1) * 7).toNat, by omega⟩
      rw [if_neg before, same, Int.toNat_natCast]
      unfold weekdayAt
      constructor
      · intro found
        split at found
        · cases found
          omega
        · cases found
      · rintro ⟨low, _, weekday, after, high⟩
        have back : ((YearWeeks.newYear year + base) % 7 + 7 - day.index) % 7 = base - i := by
          omega
        rw [back, if_pos (by omega)]
        exact congrArg (fun found => Except.ok (some found)) (by omega)
  · have known := fits.2 (Int.not_lt.mp negative)
    have positive : 0 < n := by omega
    obtain ⟨base, same⟩ : ∃ base : Nat, (first : Int) + (n - 1) * 7 = base :=
      ⟨((first : Int) + (n - 1) * 7).toNat, by omega⟩
    rw [if_neg negative, if_neg (Int.not_le.mpr known), if_pos positive, same, Int.toNat_natCast]
    unfold weekdayAt
    constructor
    · intro found
      split at found
      · cases found
        omega
      · cases found
    · rintro ⟨_, high, weekday, low, before⟩
      have on : (7 - (YearWeeks.newYear year + base) % 7 + day.index) % 7 = i - base := by
        omega
      rw [on, if_pos (by omega)]
      exact congrArg (fun found => Except.ok (some found)) (by omega)

theorem mem_ordinalDays {found : List Nat} (read : s.ordinalDays year month = .ok found) :
    i ∈ found ↔ ∃ stretch ∈ s.stretches year month, ∃ entry ∈ s.ordinals,
      ordinalDay year stretch.1 stretch.2 entry.1 entry.2 = .ok (some i) := by
  obtain ⟨lists, each, made⟩ := Outcome.bind_eq_ok.mp read
  cases Outcome.pure_eq_ok.mp made
  simp only [List.mem_filterMap, List.mem_flatten, id_eq, exists_eq_right]
  constructor
  · rintro ⟨days, inLists, member⟩
    obtain ⟨stretch, among, read⟩ := Outcome.mem_mapM each inLists
    obtain ⟨entry, chosen, found⟩ := Outcome.mem_mapM read member
    exact ⟨stretch, among, entry, chosen, found⟩
  · rintro ⟨stretch, among, entry, chosen, found⟩
    obtain ⟨days, inLists, read⟩ := Outcome.mem_mapM_of_mem each among
    obtain ⟨_, member, same⟩ := Outcome.mem_mapM_of_mem read chosen
    cases found.symm.trans same
    exact ⟨days, inLists, member⟩

/-- What the table of a period says about weekdays with an ordinal: a day is among them
when one of the entries finds it in one of the stretches. -/
theorem yearTable_parts {period : Nat} {table : YearTable} (known : s.yearTable period = .ok table) :
    table.newYear = Date.daysBeforeYear (Date.ofNumber (s.firstDay period)).year + 1 ∧
      (∀ stretch ∈ s.stretches (Date.ofNumber (s.firstDay period)).year
          (Date.ofNumber (s.firstDay period)).month, ∀ entry ∈ s.ordinals, ∃ found,
        ordinalDay (Date.ofNumber (s.firstDay period)).year stretch.1 stretch.2 entry.1 entry.2 =
          .ok found) ∧
      ∀ i, i ∈ table.ordinals ↔ ∃ stretch ∈ s.stretches (Date.ofNumber (s.firstDay period)).year
          (Date.ofNumber (s.firstDay period)).month, ∃ entry ∈ s.ordinals,
        ordinalDay (Date.ofNumber (s.firstDay period)).year stretch.1 stretch.2 entry.1 entry.2 =
          .ok (some i) := by
  unfold yearTable at known
  obtain ⟨weeks, _, known⟩ := Outcome.bind_eq_ok.mp known
  obtain ⟨days, read, known⟩ := Outcome.bind_eq_ok.mp known
  cases Outcome.pure_eq_ok.mp known
  refine ⟨rfl, neededOrdinals_ok_iff.mp ⟨days, read⟩, fun i => ?_⟩
  unfold neededOrdinals at read
  split at read
  · rename_i nothing
    cases read
    simp [List.isEmpty_iff.mp nothing]
  · exact mem_ordinalDays read

/-- The year in which a period begins has begun before its days. -/
theorem newYear_le {period : Nat} {table : YearTable} (known : s.yearTable period = .ok table)
    (positive : 0 < s.firstDay period) {number : Nat} (member : number ∈ s.days period) :
    table.newYear ≤ number := by
  have before := (Date.yearOf_bounds _ positive).2.1
  rw [days, List.mem_range'_1] at member
  rw [(yearTable_parts known).1]
  exact Nat.le_trans before member.1

/-- A day that is found by an ordinal has the weekday of its entry. -/
theorem weekday_of_ordinals {period : Nat} {table : YearTable} (sound : s.IsSound)
    (known : s.yearTable period = .ok table) (positive : 0 < s.firstDay period) {number : Nat}
    (member : number ∈ s.days period) (found : number - table.newYear ∈ table.ordinals) :
    ∃ entry ∈ s.ordinals, entry.2.index = Weekday.indexOfNumber number := by
  have begun := newYear_le known positive member
  obtain ⟨first, fits, mem_iff⟩ := yearTable_parts known
  obtain ⟨stretch, among, entry, chosen, read⟩ := (mem_iff _).mp found
  have nonzero := (sound.ordinals entry chosen).1
  obtain ⟨_, _, weekday, _⟩ :=
    (ordinalDay_eq_some_iff nonzero (fits stretch among entry chosen)).mp read
  rw [weekdayAt_add, ← first, Nat.add_sub_cancel' begun] at weekday
  exact ⟨entry, chosen, weekday.symm⟩

section Monthly

variable {period number : Nat}

/-- The dates of a monthly period are those of its month. -/
theorem ofNumber_of_monthly (monthly : s.frequency = .monthly) (later : s.firstPeriod ≤ period)
    (inside : period < horizon s.frequency) (member : number ∈ s.days period) :
    ∃ day, 1 ≤ day ∧ day ≤ Date.monthLength (period / 12) (period % 12 + 1) ∧
      number = Date.daysBeforeYear (period / 12) +
        Date.daysBeforeMonth (period / 12) (period % 12 + 1) + day ∧
      Date.ofNumber number = ⟨period / 12, period % 12 + 1, day⟩ := by
  have year := (Date.isValid_iff.mp s.start.date_isValid).1
  have last : Date.lastYear = 9999 := rfl
  rw [days, List.mem_range'_1] at member
  unfold firstDay length at member
  unfold firstPeriod at later
  unfold horizon at inside
  simp only [monthly] at member later inside
  obtain ⟨day, same⟩ : ∃ day, number = Date.daysBeforeYear (period / 12) +
      Date.daysBeforeMonth (period / 12) (period % 12 + 1) + day := Nat.exists_eq_add_of_le (by omega)
  have valid : Date.isValid ⟨period / 12, period % 12 + 1, day⟩ = true := by
    rw [Date.isValid_iff]
    dsimp only
    omega
  have found := Date.ofNumber_number valid
  rw [Date.number, ← same] at found
  exact ⟨day, by omega, by omega, same, found⟩

/-- In a monthly period the ordinals find the days that are the n-th of their weekday in
the month. -/
theorem mem_ordinals_of_monthly {table : YearTable} (sound : s.IsSound)
    (monthly : s.frequency = .monthly) (later : s.firstPeriod ≤ period)
    (inside : period < horizon s.frequency) (known : s.yearTable period = .ok table)
    (member : number ∈ s.days period) :
    number - table.newYear ∈ table.ordinals ↔ ∃ entry ∈ s.ordinals,
      entry.2.index = Weekday.indexOfNumber number ∧ (Date.ofNumber number).IsNthInMonth entry.1 := by
  have firstMember : s.firstDay period ∈ s.days period := by
    rw [days, List.mem_range'_1] at member ⊢
    omega
  obtain ⟨_, _, _, _, first⟩ := ofNumber_of_monthly monthly later inside firstMember
  obtain ⟨day, low, high, same, date⟩ := ofNumber_of_monthly monthly later inside member
  obtain ⟨newYear, fits, mem_iff⟩ := yearTable_parts known
  have place : number - table.newYear =
      Date.daysBeforeMonth (period / 12) (period % 12 + 1) + day - 1 := by
    rw [newYear, first, same]
    dsimp only
    omega
  rw [mem_iff, place]
  rw [first] at fits ⊢
  simp only [stretches, monthly, List.mem_singleton, exists_eq_left, forall_eq] at fits ⊢
  refine exists_congr fun entry => and_congr_right fun chosen => ?_
  have nonzero := (sound.ordinals entry chosen).1
  rw [ordinalDay_eq_some_iff nonzero (fits entry chosen), date, weekdayAt_add, Date.IsNthInMonth]
  have onDay : Date.daysBeforeYear (period / 12) + 1 +
      (Date.daysBeforeMonth (period / 12) (period % 12 + 1) + day - 1) = number := by
    omega
  rw [onDay]
  unfold monthStretch
  dsimp only
  split
  · omega
  · omega

end Monthly

end Recurrence.Series
