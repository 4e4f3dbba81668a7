import Recurrence.Proofs.Calendar.TimestampParts
import Recurrence.Series.Period

namespace Recurrence.Series

theorem ifMissing_ok_iff {α : Type} {fault : Fault} {found : Option α} :
    (∃ a, fault.ifMissing found = .ok a) ↔ ∃ a, found = some a := by
  cases found with
  | none =>
    refine iff_of_false ?_ ?_
    · rintro ⟨_, found⟩
      cases found
    · rintro ⟨_, found⟩
      cases found
  | some a => exact iff_of_true ⟨a, rfl⟩ ⟨a, rfl⟩

theorem moment_ok_iff {s : Series} {day time : Nat} (positive : 0 < day) (bound : time < 86400) :
    (∃ t, s.moment day time = .ok t) ↔ day ≤ Date.lastNumber := by
  have last : Date.lastNumber = 3652059 := rfl
  rw [moment, ifMissing_ok_iff, Timestamp.make?_isSome_iff]
  omega

theorem chosen_lt {size fallback : Nat} {wanted : Option (List Int)} (bound : fallback < size)
    {n : Nat} (member : n ∈ chosen size wanted fallback) : n < size := by
  unfold chosen at member
  split at member
  · rw [List.mem_singleton.mp member]
    exact bound
  · exact List.mem_range.mp ((List.mem_filter.mp member).1)

theorem clockTimes_lt {hours minutes seconds : List Nat} (hour : ∀ n ∈ hours, n < 24)
    (minute : ∀ n ∈ minutes, n < 60) (second : ∀ n ∈ seconds, n < 60) {time : Nat}
    (member : time ∈ clockTimes hours minutes seconds) : time < 86400 := by
  obtain ⟨h, amongHours, member⟩ := List.mem_flatMap.mp member
  obtain ⟨m, amongMinutes, member⟩ := List.mem_flatMap.mp member
  obtain ⟨s, amongSeconds, rfl⟩ := List.mem_map.mp member
  have := hour h amongHours
  have := minute m amongMinutes
  have := second s amongSeconds
  omega

theorem minuteChoice_lt (s : Series) : ∀ n ∈ s.minuteChoice, n < 60 := fun _ member =>
  chosen_lt (by have := s.start.clock_bounds; omega) member

theorem secondChoice_lt (s : Series) : ∀ n ∈ s.secondChoice, n < 60 := fun _ member =>
  chosen_lt (by have := s.start.clock_bounds; omega) member

theorem dayTimes_lt (s : Series) : ∀ time ∈ s.dayTimes, time < 86400 := fun _ member =>
  clockTimes_lt (fun _ hour => chosen_lt (by have := s.start.clock_bounds; omega) hour)
    s.minuteChoice_lt s.secondChoice_lt member

theorem clock_lt (f : Frequency) (period : Nat) :
    (clock f period).1 < 24 ∧ (clock f period).2.1 < 60 ∧ (clock f period).2.2 < 60 := by
  have inDay : period % unitsPerDay f * (86400 / unitsPerDay f) < 86400 := by
    cases f <;> simp only [unitsPerDay] <;> omega
  unfold clock
  dsimp only
  omega

/-- The times of a period are times of day. -/
theorem times_lt (s : Series) (period : Nat) : ∀ time ∈ s.times s.dayTimes period, time < 86400 := by
  intro time member
  obtain ⟨hour, minute, second⟩ := clock_lt s.frequency period
  unfold times at member
  split at member
  · exact s.dayTimes_lt time member
  · split at member
    · cases member
    · refine clockTimes_lt ?_ ?_ ?_ member
      · intro n only
        rw [List.mem_singleton.mp only]
        exact hour
      · intro n among
        split at among
        · rw [List.mem_singleton.mp among]
          exact minute
        · exact s.minuteChoice_lt n among
      · intro n among
        split at among
        · rw [List.mem_singleton.mp among]
          exact second
        · exact s.secondChoice_lt n among

theorem last_year {year : Nat} (positive : 1 ≤ year) (bound : year ≤ Date.lastYear) :
    Date.daysBeforeYear year + Date.yearLength year ≤ Date.lastNumber := by
  rw [← Date.daysBeforeYear_succ positive, Date.lastNumber_eq]
  exact Date.daysBeforeYear_mono (Nat.le_add_left 1 year) (Nat.succ_le_succ bound)

/-- The days of a period are within the calendar, except those of a week that
goes on behind its end. -/
theorem mem_days {s : Series} {period day : Nat} (later : s.firstPeriod ≤ period)
    (inside : period < horizon s.frequency) (member : day ∈ s.days period) :
    0 < day ∧ (s.frequency ≠ .weekly → day ≤ Date.lastNumber) := by
  have last : Date.lastYear = 9999 := rfl
  have year := (Date.isValid_iff.mp s.start.date_isValid).1
  have number := s.start.dayNumber_bounds.1
  rw [days, List.mem_range'_1] at member
  unfold firstDay length at member
  unfold firstPeriod at later
  unfold horizon at inside
  cases kind : s.frequency with
  | yearly =>
    simp only [kind] at member later inside
    have bound := last_year (by omega : 1 ≤ period) (by omega)
    omega
  | monthly =>
    simp only [kind] at member later inside
    have bound := last_year (by omega : 1 ≤ period / 12) (by omega)
    have month : Date.daysBeforeMonth (period / 12) (period % 12 + 2) ≤
        Date.daysBeforeMonth (period / 12) 13 := Date.daysBeforeMonth_mono (by omega)
    rw [Date.daysBeforeMonth_succ, Date.daysBeforeMonth_thirteen] at month
    omega
  | weekly =>
    simp only [kind, unitsPerDay] at member later inside
    exact ⟨by omega, fun other => absurd rfl other⟩
  | daily =>
    simp only [kind, unitsPerDay] at member later inside
    omega
  | hourly =>
    simp only [kind, unitsPerDay] at member later inside
    omega
  | minutely =>
    simp only [kind, unitsPerDay] at member later inside
    omega
  | secondly =>
    simp only [kind, unitsPerDay] at member later inside
    omega

end Recurrence.Series
