import Recurrence.Proofs.Series.Choices
import Recurrence.Proofs.Series.Clock

namespace Recurrence.Series

variable {schedule : Schedule} {moment start t : Timestamp}
  {clock : Option (List Int) × Option (List Int) × Option (List Int)} {period : Nat}
  {table : YearTable}

theorem fillDays_of_closed (closed : leavesDaysOpen schedule = false) (s : Series) :
    fillDays schedule s = s := by
  unfold fillDays
  rw [closed, if_neg Bool.false_ne_true]

theorem closed_of_monthDays (given : schedule.monthDays ≠ []) : leavesDaysOpen schedule = false := by
  unfold leavesDaysOpen
  rw [List.isEmpty_eq_false_iff.mpr given]
  simp

theorem closed_of_weekdays (given : schedule.weekdays ≠ []) : leavesDaysOpen schedule = false := by
  unfold leavesDaysOpen
  rw [List.isEmpty_eq_false_iff.mpr given]
  simp

/-- Months that are given are not filled in. -/
theorem months_fillDays_of_given {s : Series} (given : s.months ≠ []) :
    (fillDays schedule s).months = s.months := by
  unfold fillDays
  split
  · split
    · exact if_neg fun empty => given (List.isEmpty_iff.mp empty)
    all_goals rfl
  · rfl

theorem months_of_sound (sound : schedule.IsSound moment) :
    schedule.months.filterMap Datum.toMonth? = (integers schedule.months).map Int.toNat := by
  obtain ⟨same, inside⟩ := values_of_sound sound (rfl : ListPart.month.range? = some _)
  change schedule.months = (integers schedule.months).map .int at same
  have read : ∀ n ∈ integers schedule.months, (Datum.int n).toMonth? = some n.toNat :=
    fun n member => Datum.toMonth?_int (inside n member).1 (inside n member).2.1
  conv_lhs => rw [same]
  generalize integers schedule.months = ns at read
  rw [List.filterMap_map, ← List.filterMap_eq_map]
  exact List.filterMap_congr read

/-- A moment falls in one of the months of the schedule. -/
theorem month_of_bound (sound : schedule.IsSound moment) (given : schedule.months ≠ [])
    (origin : (bound schedule start clock).ComesFrom period table t) :
    .int t.date.month ∈ schedule.months := by
  obtain ⟨same, inside⟩ := values_of_sound sound (rfl : ListPart.month.range? = some _)
  change schedule.months = (integers schedule.months).map .int at same
  have read := months_of_sound sound
  have present : schedule.months.filterMap Datum.toMonth? ≠ [] := by
    intro nothing
    rw [nothing] at read
    rw [List.map_eq_nil_iff.mp read.symm] at same
    exact given same
  have months : (bound schedule start clock).months = (integers schedule.months).map Int.toNat :=
    (months_fillDays_of_given present).trans read
  rcases origin.chooses.month with nothing | member
  · rw [months, ← read] at nothing
    exact absurd nothing present
  · rw [months] at member
    obtain ⟨n, among, isMonth⟩ := List.mem_map.mp member
    have low := (inside n among).1
    have number : n = (Date.ofNumber t.dayNumber).month := by omega
    rw [same]
    exact List.mem_map.mpr ⟨n, among, congrArg Datum.int number⟩

/-- A moment falls on one of the days of the month of the schedule. -/
theorem monthDay_of_bound (sound : schedule.IsSound moment) (given : schedule.monthDays ≠ [])
    (origin : (bound schedule start clock).ComesFrom period table t) :
    ∃ n, .int n ∈ schedule.monthDays ∧ t.date.IsDayOfMonth n := by
  obtain ⟨same, _⟩ := values_of_sound sound (rfl : ListPart.monthDay.range? = some _)
  change schedule.monthDays = (integers schedule.monthDays).map .int at same
  have monthDays : (bound schedule start clock).monthDays = some (integers schedule.monthDays) := by
    rw [bound, fillDays_of_closed (closed_of_monthDays given)]
    refine if_neg fun empty => given ?_
    rw [same, List.isEmpty_iff.mp empty]
    rfl
  have among {n : Int} (member : n ∈ integers schedule.monthDays) : .int n ∈ schedule.monthDays := by
    rw [same]
    exact List.mem_map_of_mem member
  obtain ⟨_, _, _, _, low, high⟩ := Date.isValid_iff.mp t.date_isValid
  have kept := origin.chooses.monthDay
  rw [keepsMonthDay, monthDays] at kept
  simp only [Bool.or_eq_true, List.contains_iff_mem] at kept
  change ((t.date.day : Int) ∈ _) ∨ ((t.date.day : Int) - 1 - Date.monthLength t.date.year t.date.month ∈ _)
    at kept
  unfold Date.IsDayOfMonth
  rcases kept with fromStart | fromEnd
  · exact ⟨_, among fromStart, .inl ⟨by omega, rfl⟩⟩
  · exact ⟨_, among fromEnd, .inr ⟨by omega, by omega⟩⟩

theorem weekdays_of_given (given : schedule.weekdays ≠ []) :
    (bound schedule start clock).weekdays = schedule.weekdays.filterMap DayChoice.every? := by
  rw [bound, fillDays_of_closed (closed_of_weekdays given)]

/-- A moment falls on one of the weekdays of the schedule. -/
theorem weekday_of_bound (sound : schedule.IsSound moment) (given : schedule.weekdays ≠ [])
    (origin : (bound schedule start clock).ComesFrom period table t) :
    ∃ choice ∈ schedule.weekdays, choice.day.index = Weekday.indexOfNumber t.dayNumber := by
  have present : (bound schedule start clock).weekdays ≠ [] ∨ (bound schedule start clock).ordinals ≠ [] := by
    rw [weekdays_of_given given, bound_ordinals]
    obtain ⟨choice, member⟩ := List.exists_mem_of_ne_nil _ given
    cases choice with
    | every day => exact .inl (List.ne_nil_of_mem (List.mem_filterMap.mpr ⟨_, member, rfl⟩))
    | nth ordinal day =>
      obtain ⟨n, _, rfl, _⟩ := sound.ordinals ordinal day member
      exact .inr (List.ne_nil_of_mem (List.mem_filterMap.mpr ⟨_, member, rfl⟩))
  rcases origin.weekday (bound_isSound sound start clock) present with ⟨day, member, same⟩ |
    ⟨entry, member, same⟩
  · rw [weekdays_of_given given] at member
    obtain ⟨choice, among, read⟩ := List.mem_filterMap.mp member
    cases choice with
    | every own =>
      cases read
      exact ⟨_, among, same⟩
    | nth _ _ => cases read
  · rw [bound_ordinals] at member
    exact ⟨_, mem_nth? member, same⟩

/-- When all weekdays of a monthly schedule have ordinals, a moment is the n-th of its
weekday in the month for one of them. -/
theorem nth_of_bound (sound : schedule.IsSound moment) (monthly : schedule.frequency = .monthly)
    (given : schedule.weekdays ≠ [])
    (numbered : ∀ choice ∈ schedule.weekdays, ∃ n day, choice = .nth (.int n) day)
    (origin : (bound schedule start clock).ComesFrom period table t) :
    ∃ n day, .nth (.int n) day ∈ schedule.weekdays ∧
      day.index = Weekday.indexOfNumber t.dayNumber ∧ t.date.IsNthInMonth n := by
  have present : (bound schedule start clock).ordinals ≠ [] := by
    rw [bound_ordinals]
    obtain ⟨choice, member⟩ := List.exists_mem_of_ne_nil _ given
    obtain ⟨n, day, rfl⟩ := numbered choice member
    exact List.ne_nil_of_mem (List.mem_filterMap.mpr ⟨_, member, rfl⟩)
  obtain ⟨entry, member, day, nth⟩ :=
    origin.nth (bound_isSound sound start clock) ((bound_frequency ..).trans monthly) present
  rw [bound_ordinals] at member
  exact ⟨_, _, mem_nth? member, day, nth⟩

/-- What is read of a part of the clock are some of its numbers. -/
theorem wants_of_admits {size : Nat} {finer own : Bool} {interval begin : Nat} {ns : List Int}
    {wanted : Option (List Int)} (exclusive : own = true → finer = false)
    (inside : ∀ n ∈ ns, 0 ≤ n ∧ n ≤ (size : Int) - 1)
    (read : readClockPart size finer own interval begin (ns.map .int) = .ok wanted) {n : Nat}
    (admitted : admits wanted n = true) : Schedule.Wants (ns.map .int) n := by
  rw [readClockPart_int interval begin exclusive inside] at read
  split at read
  · rename_i empty
    rw [List.isEmpty_iff.mp empty]
    exact .inl rfl
  · refine .inr (List.mem_map_of_mem ?_)
    split at read
    · split at read
      · cases read
      · cases read
        exact (List.mem_filter.mp (List.contains_iff_mem.mp admitted)).1
    · cases read
      exact List.contains_iff_mem.mp admitted

/-- A moment shows one of the hours, minutes and seconds of the schedule. -/
theorem wants_of_bound (sound : schedule.IsSound moment)
    (read : readClock schedule (intervalOf schedule) start.aware.cutSeconds = .ok clock)
    (origin : (bound schedule start clock).ComesFrom period table t) :
    Schedule.Wants schedule.hours t.hour ∧ Schedule.Wants schedule.minutes t.minute ∧
      Schedule.Wants schedule.seconds t.second := by
  obtain ⟨⟨hours, inHours⟩, ⟨minutes, inMinutes⟩, ⟨seconds, inSeconds⟩⟩ := clock_of_sound sound
  obtain ⟨hourly, minutely, secondly⟩ := own_exclusive schedule.frequency
  unfold readClock at read
  obtain ⟨h, readHours, read⟩ := Outcome.bind_eq_ok.mp read
  obtain ⟨m, readMinutes, read⟩ := Outcome.bind_eq_ok.mp read
  obtain ⟨s, readSeconds, read⟩ := Outcome.bind_eq_ok.mp read
  cases read
  obtain ⟨hour, minute, second⟩ := origin.clock
  rw [bound_hours] at hour
  rw [bound_minutes] at minute
  rw [bound_seconds] at second
  rw [hours] at readHours ⊢
  rw [minutes] at readMinutes ⊢
  rw [seconds] at readSeconds ⊢
  exact ⟨wants_of_admits hourly inHours readHours hour, wants_of_admits minutely inMinutes readMinutes minute,
    wants_of_admits secondly inSeconds readSeconds second⟩

end Recurrence.Series
