import Recurrence.Proofs.Series.Binding
import Recurrence.Series.Period

namespace Recurrence

namespace Schedule

/-- Whether a part of the clock asks for a number, or for nothing particular. -/
def Wants (values : List Datum) (n : Nat) : Prop := values = [] ∨ Datum.int n ∈ values

/-- Whether a second of the day lies in the hours, minutes and seconds that the
schedule asks for, as far as they are no shorter than its period. -/
def WantsTime (s : Schedule) (second : Nat) : Prop :=
  Wants s.hours (second / 3600) ∧
    (s.frequency.isWithinHour = true → Wants s.minutes (second / 60 % 60)) ∧
    (s.frequency.isWithinMinute = true → Wants s.seconds (second % 60))

/-- The second of the day that the start's clock shows after some whole intervals. -/
def timeAfter (s : Schedule) (start : Timestamp) (steps : Nat) : Nat :=
  (start.secondOfDay + steps * Series.intervalOf s * (86400 / Series.unitsPerDay s.frequency)) %
    86400

/-- Whether a clock that goes on from the start by whole intervals ever shows a
time that the schedule asks for. Periods of a day or longer take any time. -/
def MeetsClock (s : Schedule) (start : Timestamp) : Prop :=
  s.frequency.isWithinDay = true → ∃ steps, s.WantsTime (s.timeAfter start steps)

theorem timeAfter_hourly {s : Schedule} (start : Timestamp) (steps : Nat)
    (hourly : s.frequency = .hourly) :
    s.timeAfter start steps / 3600 = (start.hour + steps * Series.intervalOf s) % 24 := by
  simp only [timeAfter, hourly, Series.unitsPerDay, Timestamp.hour]
  generalize steps * Series.intervalOf s = units
  omega

theorem timeAfter_minutely {s : Schedule} (start : Timestamp) (steps : Nat)
    (minutely : s.frequency = .minutely) :
    s.timeAfter start steps / 60 % 60 = (start.minute + steps * Series.intervalOf s) % 60 := by
  simp only [timeAfter, minutely, Series.unitsPerDay, Timestamp.minute]
  generalize steps * Series.intervalOf s = units
  omega

theorem timeAfter_secondly {s : Schedule} (start : Timestamp) (steps : Nat)
    (secondly : s.frequency = .secondly) :
    s.timeAfter start steps % 60 = (start.second + steps * Series.intervalOf s) % 60 := by
  simp only [timeAfter, secondly, Series.unitsPerDay, Timestamp.second]
  generalize steps * Series.intervalOf s = units
  omega

end Schedule

namespace Series

/-- The numbers that whole intervals reach from the start's own. -/
def reached (size interval start : Nat) (ns : List Int) : List Int :=
  ns.filter fun n => (n - (start : Int)) % (Nat.gcd interval size : Int) == 0

theorem step_reached (start steps interval size : Nat) :
    ((((start + steps * interval) % size : Nat) : Int) - start) % (Nat.gcd interval size : Int) = 0 := by
  refine Int.emod_eq_zero_of_dvd ?_
  have intervals : (Nat.gcd interval size : Int) ∣ ((steps * interval : Nat) : Int) :=
    Int.natCast_dvd_natCast.mpr (Nat.dvd_trans (Nat.gcd_dvd_left ..) (Nat.dvd_mul_left ..))
  have rounds : (Nat.gcd interval size : Int) ∣ ((size * ((start + steps * interval) / size) : Nat) : Int) :=
    Int.natCast_dvd_natCast.mpr (Nat.dvd_trans (Nat.gcd_dvd_right ..) (Nat.dvd_mul_right ..))
  have parts := Nat.mod_add_div (start + steps * interval) size
  have difference : (((start + steps * interval) % size : Nat) : Int) - start =
      ((steps * interval : Nat) : Int) - ((size * ((start + steps * interval) / size) : Nat) : Int) := by
    omega
  rw [difference]
  exact Int.dvd_sub intervals rounds

/-- How a part of the clock whose values are integers is read. -/
theorem readClockPart_int {size : Nat} {finer own : Bool} (interval start : Nat) {ns : List Int}
    (exclusive : own = true → finer = false)
    (inside : ∀ n ∈ ns, 0 ≤ n ∧ n ≤ (size : Int) - 1) :
    readClockPart size finer own interval start (ns.map .int) =
      if ns.isEmpty then .ok none
      else if own then
        if (reached size interval start ns).isEmpty then .error .badValue
        else .ok (some (reached size interval start ns))
      else .ok (some ns) := by
  unfold readClockPart
  rw [List.isEmpty_map]
  by_cases empty : ns.isEmpty = true
  · rw [if_pos empty, if_pos empty]
    rfl
  have wanted : readWanted (ns.map .int) = .ok (some ns) := by
    rw [readWanted_int, wantedOf, if_neg empty]
  have strict : readStrict 0 (size - 1) true (ns.map .int) = .ok ns :=
    readStrict_int fun n member => ⟨(inside n member).1, (inside n member).2, .inr rfl⟩
  have numbers : ((ns.map Datum.int).any fun d => d.asNumber?.isNone) = false := by
    simp [List.any_map, Function.comp_def, Datum.asNumber?]
  rw [if_neg empty, if_neg empty]
  cases own with
  | false =>
    cases finer with
    | true =>
      simp only [if_true, strict, bind, Except.bind, Bool.false_eq_true, if_false]
      rfl
    | false =>
      simp only [Bool.false_eq_true, if_false, wanted, bind, Except.bind, Bool.not_false, if_true]
      rfl
  | true =>
    rw [exclusive rfl]
    simp only [Bool.false_eq_true, if_false, wanted, bind, Except.bind, Bool.not_true, if_true,
      numbers, Option.getD_some]
    by_cases every : Nat.gcd interval size = 1
    · have all : reached size interval start ns = ns := by
        rw [reached, every, List.filter_eq_self]
        intro n _
        exact beq_iff_eq.mpr (Int.emod_one _)
      rw [if_pos every, all, if_neg empty]
      rfl
    · rw [if_neg every]
      rfl

theorem admits_readClockPart {size : Nat} {finer own : Bool} {interval start : Nat} {ns : List Int}
    {wanted : Option (List Int)} (exclusive : own = true → finer = false)
    (inside : ∀ n ∈ ns, 0 ≤ n ∧ n ≤ (size : Int) - 1)
    (read : readClockPart size finer own interval start (ns.map .int) = .ok wanted) {n : Nat}
    (step : own = true → ((n : Int) - start) % (Nat.gcd interval size : Int) = 0) :
    admits wanted n = true ↔ Schedule.Wants (ns.map .int) n := by
  have wants : Schedule.Wants (ns.map .int) n ↔ ns = [] ∨ (n : Int) ∈ ns := by
    simp [Schedule.Wants]
  rw [wants]
  rw [readClockPart_int interval start exclusive inside] at read
  split at read
  · rename_i empty
    cases read
    exact iff_of_true rfl (.inl (List.isEmpty_iff.mp empty))
  · rename_i present
    have nonempty : ns ≠ [] := fun empty => present (List.isEmpty_iff.mpr empty)
    split at read
    · rename_i isOwn
      split at read
      · cases read
      · cases read
        simp only [admits, List.contains_iff_mem, reached, List.mem_filter, step isOwn,
          beq_self_eq_true, and_true, nonempty, false_or]
    · cases read
      simp only [admits, List.contains_iff_mem, nonempty, false_or]

/-- A part of the clock can be read when some number that is wanted is reached. -/
theorem readClockPart_ok {size : Nat} {finer own : Bool} {interval start : Nat} {ns : List Int}
    (exclusive : own = true → finer = false)
    (inside : ∀ n ∈ ns, 0 ≤ n ∧ n ≤ (size : Int) - 1) {n : Nat}
    (wants : own = true → Schedule.Wants (ns.map .int) n)
    (step : own = true → ((n : Int) - start) % (Nat.gcd interval size : Int) = 0) :
    ∃ wanted, readClockPart size finer own interval start (ns.map .int) = .ok wanted := by
  rw [readClockPart_int interval start exclusive inside]
  split
  · exact ⟨_, rfl⟩
  · rename_i present
    split
    · rename_i isOwn
      have member : (n : Int) ∈ reached size interval start ns := by
        refine List.mem_filter.mpr ⟨?_, beq_iff_eq.mpr (step isOwn)⟩
        rcases wants isOwn with empty | member
        · exact absurd (List.isEmpty_iff.mpr (List.map_eq_nil_iff.mp empty)) present
        · simpa using member
      rw [if_neg (by rw [List.isEmpty_iff]; exact List.ne_nil_of_mem member)]
      exact ⟨_, rfl⟩
    · exact ⟨_, rfl⟩

/-- A number that the clock shows after whole intervals is one that is reached, in
the unit of the period. -/
theorem own_reached (schedule : Schedule) (start : Timestamp) (steps : Nat) :
    ((schedule.frequency == .hourly) = true →
      (((schedule.timeAfter start steps / 3600 : Nat) : Int) - start.hour) %
        (Nat.gcd (intervalOf schedule) 24 : Int) = 0) ∧
    ((schedule.frequency == .minutely) = true →
      (((schedule.timeAfter start steps / 60 % 60 : Nat) : Int) - start.minute) %
        (Nat.gcd (intervalOf schedule) 60 : Int) = 0) ∧
    ((schedule.frequency == .secondly) = true →
      (((schedule.timeAfter start steps % 60 : Nat) : Int) - start.second) %
        (Nat.gcd (intervalOf schedule) 60 : Int) = 0) := by
  refine ⟨fun own => ?_, fun own => ?_, fun own => ?_⟩
  · rw [Schedule.timeAfter_hourly start steps (beq_iff_eq.mp own)]
    exact step_reached ..
  · rw [Schedule.timeAfter_minutely start steps (beq_iff_eq.mp own)]
    exact step_reached ..
  · rw [Schedule.timeAfter_secondly start steps (beq_iff_eq.mp own)]
    exact step_reached ..

theorem own_exclusive (f : Frequency) :
    ((f == .hourly) = true → (!f.isWithinDay) = false) ∧
    ((f == .minutely) = true → (!f.isWithinHour) = false) ∧
    ((f == .secondly) = true → (!f.isWithinMinute) = false) := by
  cases f <;> decide

/-- The parts of the clock of a sound schedule hold integers of their ranges. -/
theorem clock_of_sound {schedule : Schedule} {moment : Timestamp}
    (sound : schedule.IsSound moment) :
    (schedule.hours = (integers schedule.hours).map .int ∧
      ∀ n ∈ integers schedule.hours, 0 ≤ n ∧ n ≤ ((24 : Nat) : Int) - 1) ∧
    (schedule.minutes = (integers schedule.minutes).map .int ∧
      ∀ n ∈ integers schedule.minutes, 0 ≤ n ∧ n ≤ ((60 : Nat) : Int) - 1) ∧
    (schedule.seconds = (integers schedule.seconds).map .int ∧
      ∀ n ∈ integers schedule.seconds, 0 ≤ n ∧ n ≤ ((60 : Nat) : Int) - 1) := by
  obtain ⟨hours, inHours⟩ := values_of_sound sound (rfl : ListPart.hour.range? = some _)
  obtain ⟨minutes, inMinutes⟩ := values_of_sound sound (rfl : ListPart.minute.range? = some _)
  obtain ⟨seconds, inSeconds⟩ := values_of_sound sound (rfl : ListPart.second.range? = some _)
  exact ⟨⟨hours, fun n member => ⟨(inHours n member).1, (inHours n member).2.1⟩⟩,
    ⟨minutes, fun n member => ⟨(inMinutes n member).1, (inMinutes n member).2.1⟩⟩,
    ⟨seconds, fun n member => ⟨(inSeconds n member).1, (inSeconds n member).2.1⟩⟩⟩

/-- The clock of a sound schedule can be read when it is ever met. -/
theorem readClock_ok {schedule : Schedule} {moment start : Timestamp}
    (sound : schedule.IsSound moment) (meets : schedule.MeetsClock start) :
    ∃ clock, readClock schedule (intervalOf schedule) start = .ok clock := by
  obtain ⟨⟨hours, inHours⟩, ⟨minutes, inMinutes⟩, ⟨seconds, inSeconds⟩⟩ := clock_of_sound sound
  obtain ⟨hourly, minutely, secondly⟩ := own_exclusive schedule.frequency
  have wanted : ∃ steps,
      ((schedule.frequency == .hourly) = true →
        Schedule.Wants schedule.hours (schedule.timeAfter start steps / 3600)) ∧
      ((schedule.frequency == .minutely) = true →
        Schedule.Wants schedule.minutes (schedule.timeAfter start steps / 60 % 60)) ∧
      ((schedule.frequency == .secondly) = true →
        Schedule.Wants schedule.seconds (schedule.timeAfter start steps % 60)) := by
    by_cases within : schedule.frequency.isWithinDay = true
    · obtain ⟨steps, hour, minute, second⟩ := meets within
      refine ⟨steps, fun _ => hour, fun own => minute ?_, fun own => second ?_⟩
      · rw [beq_iff_eq.mp own]
        rfl
      · rw [beq_iff_eq.mp own]
        rfl
    · refine ⟨0, fun own => ?_, fun own => ?_, fun own => ?_⟩ <;>
        exact absurd (by rw [beq_iff_eq.mp own]; rfl) within
  obtain ⟨steps, hour, minute, second⟩ := wanted
  obtain ⟨ownHour, ownMinute, ownSecond⟩ := own_reached schedule start steps
  rw [hours] at hour
  rw [minutes] at minute
  rw [seconds] at second
  obtain ⟨h, readHours⟩ := readClockPart_ok hourly inHours hour ownHour
  obtain ⟨m, readMinutes⟩ := readClockPart_ok minutely inMinutes minute ownMinute
  obtain ⟨s, readSeconds⟩ := readClockPart_ok secondly inSeconds second ownSecond
  rw [← hours] at readHours
  rw [← minutes] at readMinutes
  rw [← seconds] at readSeconds
  exact ⟨(h, m, s), by simp only [readClock, readHours, readMinutes, readSeconds]; rfl⟩

theorem intervalOf_pos {schedule : Schedule} {moment : Timestamp}
    (sound : schedule.IsSound moment) : 0 < intervalOf schedule := by
  obtain ⟨n, isInt, positive, _⟩ := sound.interval
  rw [intervalOf, isInt]
  exact positive

/-- The clock at the beginning of a period within the day, as far as the period
is no longer than its units. -/
theorem clock_period {s : Series} (within : s.frequency.isWithinDay = true) (steps : Nat) {time : Nat}
    (same : (s.start.secondOfDay + steps * s.interval * (86400 / unitsPerDay s.frequency)) % 86400 =
      time) :
    (clock s.frequency (s.firstPeriod + steps * s.interval)).1 = time / 3600 ∧
    (s.frequency.isWithinHour = true →
      (clock s.frequency (s.firstPeriod + steps * s.interval)).2.1 = time / 60 % 60) ∧
    (s.frequency.isWithinMinute = true →
      (clock s.frequency (s.firstPeriod + steps * s.interval)).2.2 = time % 60) := by
  subst same
  unfold clock firstPeriod Timestamp.hour
  generalize steps * s.interval = units
  have bound : s.start.secondOfDay < 86400 := Nat.mod_lt _ (by decide)
  cases kind : s.frequency with
  | hourly =>
    simp only [unitsPerDay, Frequency.isWithinHour, Frequency.isWithinMinute]
    refine ⟨?_, fun short => (nomatch short), fun short => (nomatch short)⟩
    omega
  | minutely =>
    simp only [unitsPerDay, Frequency.isWithinMinute]
    refine ⟨?_, fun _ => ?_, fun short => (nomatch short)⟩
    · omega
    · omega
  | secondly =>
    simp only [unitsPerDay]
    refine ⟨?_, fun _ => ?_, fun _ => ?_⟩
    · omega
    · omega
    · omega
  | _ =>
    rw [kind] at within
    cases within

theorem admitsPeriod_iff {s : Series} (within : s.frequency.isWithinDay = true) (steps : Nat)
    {time : Nat}
    (same : (s.start.secondOfDay + steps * s.interval * (86400 / unitsPerDay s.frequency)) % 86400 =
      time) :
    s.admitsPeriod (s.firstPeriod + steps * s.interval) = true ↔
      admits s.hours (time / 3600) = true ∧
      (s.frequency.isWithinHour = true → admits s.minutes (time / 60 % 60) = true) ∧
      (s.frequency.isWithinMinute = true → admits s.seconds (time % 60) = true) := by
  obtain ⟨hour, minute, second⟩ := clock_period within steps same
  have imp (a b : Bool) : (!a || b) = true ↔ (a = true → b = true) := by cases a <;> simp
  simp only [admitsPeriod, Bool.and_eq_true, imp, within, forall_const, hour, and_assoc]
  refine and_congr_right fun _ => and_congr (imp_congr_right fun short => ?_)
    (imp_congr_right fun short => ?_)
  · rw [minute short]
  · rw [second short]

/-- A period within the day that is reached by whole intervals is admitted when
the clock then shows what the schedule asks for. -/
theorem admitsPeriod_bound {schedule : Schedule} {moment start : Timestamp}
    {clock : Option (List Int) × Option (List Int) × Option (List Int)}
    (sound : schedule.IsSound moment)
    (read : readClock schedule (intervalOf schedule) start.aware.cutSeconds = .ok clock)
    (within : schedule.frequency.isWithinDay = true) (steps : Nat) :
    (bound schedule start clock).admitsPeriod
        ((bound schedule start clock).firstPeriod +
          steps * (bound schedule start clock).interval) = true ↔
      schedule.WantsTime (schedule.timeAfter start steps) := by
  obtain ⟨⟨hours, inHours⟩, ⟨minutes, inMinutes⟩, ⟨seconds, inSeconds⟩⟩ := clock_of_sound sound
  obtain ⟨hourly, minutely, secondly⟩ := own_exclusive schedule.frequency
  obtain ⟨ownHour, ownMinute, ownSecond⟩ :=
    own_reached schedule start.aware.cutSeconds steps
  unfold readClock at read
  obtain ⟨h, readHours, read⟩ := Outcome.bind_eq_ok.mp read
  obtain ⟨m, readMinutes, read⟩ := Outcome.bind_eq_ok.mp read
  obtain ⟨s, readSeconds, read⟩ := Outcome.bind_eq_ok.mp read
  cases read
  rw [hours] at readHours
  rw [minutes] at readMinutes
  rw [seconds] at readSeconds
  have hour := admits_readClockPart hourly inHours readHours ownHour
  have minute := admits_readClockPart minutely inMinutes readMinutes ownMinute
  have second := admits_readClockPart secondly inSeconds readSeconds ownSecond
  rw [← hours] at hour
  rw [← minutes] at minute
  rw [← seconds] at second
  have interval : max 1 (intervalOf schedule) = intervalOf schedule :=
    Nat.max_eq_right (intervalOf_pos sound)
  have same : ((bound schedule start (h, m, s)).start.secondOfDay +
      steps * (bound schedule start (h, m, s)).interval *
        (86400 / unitsPerDay (bound schedule start (h, m, s)).frequency)) % 86400 =
      schedule.timeAfter start steps := by
    rw [bound_start, bound_interval, bound_frequency, interval]
    rfl
  have isWithin : (bound schedule start (h, m, s)).frequency.isWithinDay = true := by
    rw [bound_frequency]
    exact within
  rw [admitsPeriod_iff isWithin steps same, bound_hours, bound_minutes, bound_seconds,
    bound_frequency]
  exact and_congr hour (and_congr (imp_congr_right fun _ => minute)
    (imp_congr_right fun _ => second))

end Series

end Recurrence
