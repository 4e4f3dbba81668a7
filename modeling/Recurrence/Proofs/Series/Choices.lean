import Recurrence.Proofs.Series.Ordinals
import Recurrence.Proofs.Series.Origins

namespace Recurrence.Series

variable {s : Series} {table : YearTable} {period : Nat} {t : Timestamp}

/-- What the days are like that a series chooses, when the table of their year is known. -/
structure Chooses (s : Series) (table : YearTable) (number : Nat) : Prop where
  month : s.months = [] ∨ (Date.ofNumber number).month ∈ s.months
  week : s.weekNumbers = [] ∨
    ∃ week ∈ table.weeks, week.1 ≤ number - table.newYear ∧ number - table.newYear < week.2
  weekday : s.weekdays = [] ∨ ∃ day ∈ s.weekdays, day.index = Weekday.indexOfNumber number
  ordinal : s.ordinals = [] ∨ number - table.newYear ∈ table.ordinals
  monthDay : s.keepsMonthDay (Date.ofNumber number) = true
  yearDay : s.keepsYearDay number = true

theorem keeps_iff {number : Nat} : s.keeps table number = true ↔ s.Chooses table number := by
  have monthDay : (s.monthDays.isNone || s.keepsMonthDay (Date.ofNumber number)) =
      s.keepsMonthDay (Date.ofNumber number) := by
    unfold keepsMonthDay
    cases s.monthDays <;> rfl
  unfold keeps
  rw [monthDay]
  simp only [Bool.and_eq_true, Bool.or_eq_true, List.isEmpty_iff, List.contains_iff_mem,
    List.any_eq_true, beq_iff_eq, decide_eq_true_eq, and_assoc]
  exact ⟨fun ⟨month, week, weekday, ordinal, monthDay, yearDay⟩ =>
      ⟨month, week, weekday, ordinal, monthDay, yearDay⟩,
    fun ⟨month, week, weekday, ordinal, monthDay, yearDay⟩ =>
      ⟨month, week, weekday, ordinal, monthDay, yearDay⟩⟩

theorem admits_of_mem_chosen {size fallback n : Nat} {wanted : Option (List Int)}
    (member : n ∈ chosen size wanted fallback) : admits wanted n = true := by
  unfold chosen at member
  unfold admits
  split at member
  · rfl
  · exact (List.mem_filter.mp member).2

/-- A time is made up of an hour, a minute and a second that are given. -/
theorem parts_of_clockTimes {hours minutes seconds : List Nat} (minute : ∀ n ∈ minutes, n < 60)
    (second : ∀ n ∈ seconds, n < 60) {time : Nat} (member : time ∈ clockTimes hours minutes seconds) :
    time / 3600 ∈ hours ∧ time / 60 % 60 ∈ minutes ∧ time % 60 ∈ seconds := by
  obtain ⟨h, inHours, member⟩ := List.mem_flatMap.mp member
  obtain ⟨m, inMinutes, member⟩ := List.mem_flatMap.mp member
  obtain ⟨sec, inSeconds, rfl⟩ := List.mem_map.mp member
  have := minute m inMinutes
  have := second sec inSeconds
  have parts : ((h * 60 + m) * 60 + sec) / 3600 = h ∧ ((h * 60 + m) * 60 + sec) / 60 % 60 = m ∧
      ((h * 60 + m) * 60 + sec) % 60 = sec := by omega
  rw [parts.1, parts.2.1, parts.2.2]
  exact ⟨inHours, inMinutes, inSeconds⟩

/-- The times of a period show hours, minutes and seconds that are wanted. -/
theorem admits_of_times {time : Nat} (member : time ∈ s.times s.dayTimes period) :
    admits s.hours (time / 3600) = true ∧ admits s.minutes (time / 60 % 60) = true ∧
      admits s.seconds (time % 60) = true := by
  unfold times at member
  split at member
  · obtain ⟨hour, minute, second⟩ := parts_of_clockTimes s.minuteChoice_lt s.secondChoice_lt member
    exact ⟨admits_of_mem_chosen hour, admits_of_mem_chosen minute, admits_of_mem_chosen second⟩
  · rename_i within
    split at member
    · cases member
    · rename_i admitted
      obtain ⟨_, minuteBound, secondBound⟩ := clock_lt s.frequency period
      simp only [admitsPeriod, Bool.not_eq_true, Bool.not_eq_false', Bool.and_eq_true, within,
        Bool.false_or] at admitted
      obtain ⟨⟨hour, minute⟩, second⟩ := admitted
      have parts := parts_of_clockTimes (fun n among => ?_) (fun n among => ?_) member
      · obtain ⟨ofHour, ofMinute, ofSecond⟩ := parts
        rw [List.mem_singleton.mp ofHour]
        refine ⟨hour, ?_, ?_⟩
        · split at ofMinute
          · rename_i short
            rw [List.mem_singleton.mp ofMinute]
            rwa [short, Bool.not_true, Bool.false_or] at minute
          · exact admits_of_mem_chosen ofMinute
        · split at ofSecond
          · rename_i short
            rw [List.mem_singleton.mp ofSecond]
            rwa [short, Bool.not_true, Bool.false_or] at second
          · exact admits_of_mem_chosen ofSecond
      · split at among
        · rwa [List.mem_singleton.mp among]
        · exact s.minuteChoice_lt n among
      · split at among
        · rwa [List.mem_singleton.mp among]
        · exact s.secondChoice_lt n among

namespace ComesFrom

theorem mem_days (origin : s.ComesFrom period table t) : t.dayNumber ∈ s.days period :=
  (List.mem_filter.mp origin.day).1

theorem chooses (origin : s.ComesFrom period table t) : s.Chooses table t.dayNumber :=
  keeps_iff.mp (List.mem_filter.mp origin.day).2

theorem clock (origin : s.ComesFrom period table t) :
    admits s.hours t.hour = true ∧ admits s.minutes t.minute = true ∧
      admits s.seconds t.second = true := admits_of_times origin.time

/-- A moment falls on one of the weekdays of the series, whether they have ordinals
or not. -/
theorem weekday (sound : s.IsSound) (origin : s.ComesFrom period table t)
    (given : s.weekdays ≠ [] ∨ s.ordinals ≠ []) :
    (∃ day ∈ s.weekdays, day.index = Weekday.indexOfNumber t.dayNumber) ∨
      ∃ entry ∈ s.ordinals, entry.2.index = Weekday.indexOfNumber t.dayNumber := by
  rcases given with plain | numbered
  · exact .inl (origin.chooses.weekday.resolve_left plain)
  · exact .inr (weekday_of_ordinals sound origin.known (firstDay_pos origin.reached) origin.mem_days
      (origin.chooses.ordinal.resolve_left numbered))

/-- In a monthly series with ordinals a moment falls on the n-th of its weekday. -/
theorem nth (sound : s.IsSound) (monthly : s.frequency = .monthly)
    (origin : s.ComesFrom period table t) (numbered : s.ordinals ≠ []) :
    ∃ entry ∈ s.ordinals, entry.2.index = Weekday.indexOfNumber t.dayNumber ∧
      t.date.IsNthInMonth entry.1 :=
  (mem_ordinals_of_monthly sound monthly (firstPeriod_le origin.reached) origin.inside origin.known
    origin.mem_days).mp (origin.chooses.ordinal.resolve_left numbered)

end ComesFrom

end Recurrence.Series
