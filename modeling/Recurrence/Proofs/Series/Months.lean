import Recurrence.Proofs.Series.Calendar
import Recurrence.Proofs.Series.Members

namespace Recurrence.Series

variable {s : Series} {t : Timestamp}

/-- Whether a moment is one of those that a monthly series chooses from as far as weekdays
do not matter: it lies in one of its months, between start and end, on a clock time and a
day that are wanted. -/
structure LiesInMonths (s : Series) (t : Timestamp) : Prop where
  period : ∃ steps, s.firstPeriod + steps * s.interval < horizon s.frequency ∧
    t.dayNumber ∈ s.days (s.firstPeriod + steps * s.interval)
  time : t.secondOfDay ∈ s.dayTimes
  offset : t.offset = s.start.offset
  whole : t.micros = 0
  month : s.months = [] ∨ t.date.month ∈ s.months
  monthDay : s.keepsMonthDay t.date = true
  yearDay : s.keepsYearDay t.dayNumber = true
  begun : s.start.instant ≤ t.instant
  ends : ∀ last, s.ends = some last → t.instant ≤ last.instant

/-- Whether a moment falls on the weekdays of a monthly series: on one of those without an
ordinal when there are any, and on one of those with an ordinal when there are any. -/
structure FallsOnWeekdays (s : Series) (t : Timestamp) : Prop where
  plain : s.weekdays = [] ∨ ∃ day ∈ s.weekdays, day.index = Weekday.indexOfNumber t.dayNumber
  numbered : s.ordinals = [] ∨ ∃ entry ∈ s.ordinals,
    entry.2.index = Weekday.indexOfNumber t.dayNumber ∧ t.date.IsNthInMonth entry.1

theorem weekNumbers_of_monthly (sound : s.IsSound) (monthly : s.frequency = .monthly) :
    s.weekNumbers = [] := by
  by_contra given
  have yearly := (sound.weekNumbers given).1
  rw [monthly] at yearly
  cases yearly

theorem times_of_monthly (monthly : s.frequency = .monthly) (period : Nat) :
    s.times s.dayTimes period = s.dayTimes := by
  unfold times
  rw [monthly]
  rfl

/-- The days that a monthly series chooses in a period. -/
theorem mem_kept_of_monthly {period : Nat} {table : YearTable} (sound : s.IsSound)
    (monthly : s.frequency = .monthly) (reached : s.Reaches period)
    (inside : period < horizon s.frequency) (known : s.yearTable period = .ok table) :
    t.dayNumber ∈ s.kept table period ↔ t.dayNumber ∈ s.days period ∧
      (s.months = [] ∨ t.date.month ∈ s.months) ∧ s.keepsMonthDay t.date = true ∧
        s.keepsYearDay t.dayNumber = true ∧ s.FallsOnWeekdays t := by
  have unnumbered := weekNumbers_of_monthly sound monthly
  unfold kept
  rw [List.mem_filter, keeps_iff]
  refine and_congr_right fun member => ?_
  have found := mem_ordinals_of_monthly sound monthly (firstPeriod_le reached) inside known member
  constructor
  · intro chooses
    exact ⟨chooses.month, chooses.monthDay, chooses.yearDay, chooses.weekday,
      chooses.ordinal.imp_right found.mp⟩
  · rintro ⟨month, monthDay, yearDay, falls⟩
    exact ⟨month, .inl unnumbered, falls.plain, falls.numbered.imp_right found.mpr, monthDay, yearDay⟩

/-- The occurrences of a monthly series that only its end bounds are the moments in its
months that fall on its weekdays. -/
theorem mem_occurrences_of_monthly (sound : s.IsSound) (monthly : s.frequency = .monthly)
    (start : s.start.micros = 0) (uncounted : s.count = none) (unplaced : s.setPositions = []) :
    t ∈ s.occurrences.items ↔ s.LiesInMonths t ∧ s.FallsOnWeekdays t := by
  have complete := complete_of_monthly sound monthly
  have calendar : s.frequency ∈ [.yearly, .monthly, .daily] := by
    rw [monthly]
    decide
  have unlimited : s.occurrences = s.unlimited := by
    unfold occurrences
    rw [uncounted]
  rw [unlimited, mem_unlimited start, mem_found_iff complete unplaced]
  constructor
  · rintro ⟨⟨period, table, origin⟩, begun, ends⟩
    have times := origin.time
    rw [times_of_monthly monthly] at times
    obtain ⟨member, month, monthDay, yearDay, falls⟩ :=
      (mem_kept_of_monthly sound monthly origin.reached origin.inside origin.known).mp origin.day
    obtain ⟨steps, rfl⟩ := reaches_calendar calendar origin.reached
    exact ⟨⟨⟨steps, origin.inside, member⟩, times, origin.offset, origin.whole, month, monthDay, yearDay,
      begun, ends⟩, falls⟩
  · rintro ⟨lies, falls⟩
    obtain ⟨steps, inside, member⟩ := lies.period
    have runs := ending_search_iff.mp complete
    have reached := reaches_of_runs calendar runs steps inside
    obtain ⟨table, known, _⟩ := runs _ reached inside
    have kept := (mem_kept_of_monthly sound monthly reached inside known).mpr
      ⟨member, lies.month, lies.monthDay, lies.yearDay, falls⟩
    have time := lies.time
    rw [← times_of_monthly monthly] at time
    exact ⟨⟨_, table, reached, inside, known, kept, time, lies.offset, lies.whole⟩, lies.begun, lies.ends⟩

end Recurrence.Series
