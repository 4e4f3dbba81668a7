import Recurrence.Proofs.Calendar.UtcClock
import Recurrence.Proofs.Schedule.Instants
import Recurrence.Proofs.Series.Binding
import Recurrence.Proofs.Series.Restart

namespace Recurrence

namespace Schedule

/-- Whether a schedule leaves the hour of day to its start, and the minute too unless
clocks are apart by whole hours. -/
def LeavesClock (s : Schedule) (offset : Int) : Prop :=
  s.hours = [] ∧ (s.minutes = [] ∨ offset % 3600 = 0)

end Schedule

namespace Series

theorem map_moment (s : Series) {day time : Nat} (positive : 0 < day) (bound : time < 86400) :
    (s.moment day time).map Timestamp.instant =
      if day ≤ Date.lastNumber then
        .ok (((((day - 1 : Nat) : Int) * 86400) + (time - s.start.offset.getD 0)) * 1000000)
      else .error .badValue := by
  have last : Date.lastNumber = 3652059 := rfl
  unfold moment Timestamp.make?
  split
  · rename_i inside
    have within : day ≤ Date.lastNumber := by omega
    rw [if_pos within]
    have whole : Int.toNat (((day - 1) * 86400 + time : Nat) : Int) = (day - 1) * 86400 + time :=
      Int.toNat_natCast _
    simp only [Fault.ifMissing, Except.map, Timestamp.instant, whole, Except.ok.injEq]
    omega
  · rename_i outside
    have beyond : ¬day ≤ Date.lastNumber := by omega
    rw [if_neg beyond]
    rfl

theorem together_of_shown {s : Series} {start : Timestamp} {times others : List Nat}
    (early : ∀ time ∈ times, time < 86400) (otherEarly : ∀ time ∈ others, time < 86400)
    (shown : times.map (fun time : Nat => (time : Int) - s.start.offset.getD 0) =
      others.map fun time : Nat => (time : Int) - start.offset.getD 0) :
    List.Forall₂ (s.Together start) times others := by
  induction times generalizing others with
  | nil =>
    cases others with
    | nil => exact .nil
    | cons => cases shown
  | cons time times ih =>
    cases others with
    | nil => cases shown
    | cons other others =>
      obtain ⟨first, rest⟩ := List.cons.inj shown
      refine .cons (fun day positive => ?_)
        (ih (fun n member => early n (List.mem_cons_of_mem _ member))
          (fun n member => otherEarly n (List.mem_cons_of_mem _ member)) rest)
      have begins : (s.restart start).start = start := rfl
      dsimp only at first
      rw [map_moment s positive (early time (List.mem_cons_self ..)),
        map_moment (s.restart start) positive (otherEarly other (List.mem_cons_self ..)), begins,
        ← first]

theorem readClock_of_long {schedule : Schedule} (long : schedule.frequency.isWithinDay = false)
    (interval : Nat) (start other : Timestamp) :
    readClock schedule interval start = readClock schedule interval other := by
  unfold readClock
  cases kind : schedule.frequency with
  | hourly | minutely | secondly =>
    rw [kind] at long
    cases long
  | daily | weekly | monthly | yearly => rfl

theorem none_of_readClock {schedule : Schedule} {interval : Nat} {start : Timestamp}
    {clock : Option (List Int) × Option (List Int) × Option (List Int)}
    (read : readClock schedule interval start = .ok clock) :
    (schedule.hours = [] → clock.1 = none) ∧ (schedule.minutes = [] → clock.2.1 = none) ∧
      (schedule.seconds = [] → clock.2.2 = none) := by
  unfold readClock at read
  obtain ⟨hours, readHours, read⟩ := Outcome.bind_eq_ok.mp read
  obtain ⟨minutes, readMinutes, read⟩ := Outcome.bind_eq_ok.mp read
  obtain ⟨seconds, readSeconds, read⟩ := Outcome.bind_eq_ok.mp read
  cases read
  refine ⟨fun empty => ?_, fun empty => ?_, fun empty => ?_⟩
  · rw [empty] at readHours
    cases readHours
    rfl
  · rw [empty] at readMinutes
    cases readMinutes
    rfl
  · rw [empty] at readSeconds
    cases readSeconds
    rfl

section Bound

variable {schedule : Schedule} {t utc : Timestamp} {offset : Int}

theorem map_clockTimes (offset : Int) (hours minutes seconds : List Nat) :
    (clockTimes hours minutes seconds).map (fun time : Nat => (time : Int) - offset) =
      hours.flatMap fun hour => minutes.flatMap fun minute => seconds.map fun second : Nat =>
        (((hour * 60 + minute) * 60 : Nat) : Int) - offset + second := by
  have time (hour minute : Nat) : ((fun time : Nat => (time : Int) - offset) ∘ fun second : Nat =>
        (hour * 60 + minute) * 60 + second) = fun second : Nat =>
        (((hour * 60 + minute) * 60 : Nat) : Int) - offset + second := by
    funext second
    simp only [Function.comp_apply]
    omega
  simp only [clockTimes, List.map_flatMap, List.map_map, time]

/-- The times of day that two starts give are the same instants, when the clocks show
the same date and the hour of day is left to the start. -/
theorem dayTimes_shown {s : Series} (start : s.start = t.aware.cutSeconds)
    (zoned : t.IsZoned offset) (inside : t.toUtc? = some utc) (date : t.date = utc.date)
    (hours : s.hours = none) (minutes : s.minutes = none ∨ offset % 3600 = 0) :
    s.dayTimes.map (fun time : Nat => (time : Int) - s.start.offset.getD 0) =
      (s.restart utc.aware.cutSeconds).dayTimes.map fun time : Nat =>
        (time : Int) - utc.aware.cutSeconds.offset.getD 0 := by
  obtain ⟨whole, hourly⟩ := Timestamp.clock_of_toUtc? zoned inside date
  have second : utc.second = t.second := Timestamp.second_of_toUtc? zoned inside
  have here : s.start.offset.getD 0 = offset := by
    rw [start]
    exact congrArg (Option.getD · 0) zoned.1
  have there : utc.aware.cutSeconds.offset.getD 0 = 0 :=
    congrArg (Option.getD · 0) (Timestamp.parts_of_toUtc? inside).2.2
  have seconds : (s.restart utc.aware.cutSeconds).secondChoice = s.secondChoice := by
    unfold secondChoice
    change chosen 60 s.seconds utc.second = chosen 60 s.seconds s.start.second
    rw [start, second]
    rfl
  have begins : s.start.hour = t.hour ∧ s.start.minute = t.minute := by
    rw [start]
    exact ⟨rfl, rfl⟩
  unfold dayTimes
  rw [map_clockTimes, map_clockTimes, here, there, seconds]
  change (chosen 24 s.hours s.start.hour).flatMap
      (fun hour => (chosen 60 s.minutes s.start.minute).flatMap _) =
    (chosen 24 s.hours utc.hour).flatMap fun hour => (chosen 60 s.minutes utc.minute).flatMap _
  rw [hours, begins.1, begins.2]
  simp only [chosen, List.flatMap_singleton]
  rcases minutes with missing | whole
  · have shift : (((t.hour * 60 + t.minute) * 60 : Nat) : Int) - offset =
        ((utc.hour * 60 + utc.minute) * 60 : Nat) := by omega
    simp only [missing, List.flatMap_singleton, shift, Int.sub_zero]
  · have hour := hourly whole
    have minute : utc.minute = t.minute := by omega
    have shift (minute : Nat) : (((t.hour * 60 + minute) * 60 : Nat) : Int) - offset =
        ((utc.hour * 60 + minute) * 60 : Nat) := by omega
    simp only [minute, shift, Int.sub_zero]

theorem bound_restart (date : t.date = utc.date)
    (clock : Option (List Int) × Option (List Int) × Option (List Int)) :
    bound schedule utc clock = (bound schedule t clock).restart utc.aware.cutSeconds := by
  have day : t.dayNumber = utc.dayNumber := by rw [← t.date_number, date, utc.date_number]
  have sameDate : utc.aware.cutSeconds.date = t.aware.cutSeconds.date := date.symm
  have sameDay : utc.aware.cutSeconds.dayNumber = t.aware.cutSeconds.dayNumber := day.symm
  unfold bound fillDays
  dsimp only
  rw [sameDate, sameDay]
  split
  · split <;> rfl
  · rfl

theorem firstPeriod_restart {s : Series} (long : s.frequency.isWithinDay = false)
    {start : Timestamp} (date : start.date = s.start.date) :
    (s.restart start).firstPeriod = s.firstPeriod := by
  have day : start.dayNumber = s.start.dayNumber := by
    rw [← start.date_number, date, s.start.date_number]
  have begins : (s.restart start).start = start := rfl
  have frequency : (s.restart start).frequency = s.frequency := rfl
  unfold firstPeriod
  rw [begins, frequency, date, day]
  cases kind : s.frequency with
  | hourly | minutely | secondly =>
    rw [kind] at long
    cases long
  | daily | weekly | monthly | yearly => rfl

end Bound

end Series

namespace Schedule

variable {schedule : Schedule} {moment t utc : Timestamp} {offset : Int}

/-- The clock of a start and that of UTC give the same instants for periods of a day
or longer, when the date is the same on both and the hour of day is left to the start. -/
theorem instants_of_sameDay (sound : schedule.IsSound moment) (zoned : t.IsZoned offset)
    (inside : t.toUtc? = some utc) (long : schedule.frequency.isWithinDay = false)
    (leaves : schedule.LeavesClock offset) (date : t.date = utc.date) :
    schedule.instants t = schedule.instants utc := by
  unfold instants
  rw [Series.ofSchedule_eq sound t, Series.ofSchedule_eq sound utc,
    Series.readClock_of_long long _ t.aware.cutSeconds utc.aware.cutSeconds]
  cases read : Series.readClock schedule (Series.intervalOf schedule) utc.aware.cutSeconds with
  | error fault => rfl
  | ok clock =>
    have here : (Series.bound schedule t clock).start = t.aware.cutSeconds := Series.bound_start ..
    have isLong : (Series.bound schedule t clock).frequency.isWithinDay = false := by
      rw [Series.bound_frequency]
      exact long
    have clocks := Series.none_of_readClock read
    have hours : (Series.bound schedule t clock).hours = none := by
      rw [Series.bound_hours, clocks.1 leaves.1]
    have minutes : (Series.bound schedule t clock).minutes = none ∨ offset % 3600 = 0 := by
      rw [Series.bound_minutes]
      exact leaves.2.imp_left clocks.2.1
    refine congrArg Except.ok ?_
    rw [Series.bound_restart date]
    generalize Series.bound schedule t clock = s at here isLong hours minutes ⊢
    have shown := Series.dayTimes_shown here zoned inside date hours minutes
    have together := Series.together_of_shown s.dayTimes_lt
      (s.restart utc.aware.cutSeconds).dayTimes_lt shown
    have whole : s.start.micros = 0 := by
      rw [here]
      rfl
    have first : (s.restart utc.aware.cutSeconds).firstPeriod = s.firstPeriod :=
      Series.firstPeriod_restart isLong (by rw [here]; exact date.symm)
    have begins : utc.aware.cutSeconds.instant = s.start.instant := by
      rw [here, Timestamp.begins_of_toUtc? inside]
    have limits (run : Run Fault Int) :
        (s.restart utc.aware.cutSeconds).limited run = s.limited run :=
      @Series.limited_congr s (s.restart utc.aware.cutSeconds) rfl rfl begins run
    have wholeUtc : (s.restart utc.aware.cutSeconds).start.micros = 0 := rfl
    dsimp only
    rw [Series.map_occurrences whole, Series.map_occurrences wholeUtc, first, limits,
      Series.map_search_restart isLong together (Nat.le_refl _)]

end Schedule

end Recurrence
