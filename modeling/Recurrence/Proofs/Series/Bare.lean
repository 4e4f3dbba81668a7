import Mathlib.Data.List.Nodup
import Recurrence.Proofs.Series.Completeness
import Recurrence.Proofs.Series.SameDay

namespace Recurrence.Series

/-- A series of weeks or shorter periods in which everything is left to the start. -/
structure IsBare (s : Series) : Prop where
  notYearly : s.frequency ≠ .yearly
  notMonthly : s.frequency ≠ .monthly
  setPositions : s.setPositions = []
  months : s.months = []
  monthDays : s.monthDays = none
  yearDays : s.yearDays = none
  weekNumbers : s.weekNumbers = []
  ordinals : s.ordinals = []
  hours : s.hours = none
  minutes : s.minutes = none
  seconds : s.seconds = none
  weekdays : s.weekdays = if s.frequency = .weekly then
    Weekday.all.filter fun day => day.index == Weekday.indexOfNumber s.start.dayNumber else []

/-- The seconds from one occurrence of a bare series to the next. -/
def step (s : Series) : Nat :=
  s.interval * if s.frequency = .weekly then 604800 else 86400 / unitsPerDay s.frequency

/-- What the clock of the start shows after some steps, in seconds. -/
def after (s : Series) (steps : Nat) : Nat := s.start.seconds + steps * s.step

/-- Whether a period is the one that a bare series comes to after some steps. -/
def Holds (s : Series) (steps period : Nat) : Prop :=
  if s.frequency = .weekly then
    period ≤ s.after steps / 86400 + 1 ∧ s.after steps / 86400 + 1 < period + s.length period
  else period = s.firstPeriod + steps * s.interval

variable {s : Series}

theorem any_index {i j : Nat} (bound : i < 7) :
    ((Weekday.all.filter fun day => day.index == i).any fun day => day.index == j) = (i == j) := by
  have named : ∀ n, n < 7 → ∃ day ∈ Weekday.all, day.index = n := by decide
  rw [Bool.eq_iff_iff, List.any_eq_true, beq_iff_eq]
  constructor
  · rintro ⟨day, member, second⟩
    have first := (List.mem_filter.mp member).2
    rw [beq_iff_eq] at first second
    exact first.symm.trans second
  · rintro rfl
    obtain ⟨day, member, index⟩ := named i bound
    exact ⟨day, List.mem_filter.mpr ⟨member, beq_iff_eq.mpr index⟩, beq_iff_eq.mpr index⟩

theorem keeps_bare (bare : s.IsBare) (table : YearTable) (number : Nat) :
    s.keeps table number = true ↔ (s.frequency = .weekly →
      Weekday.indexOfNumber number = Weekday.indexOfNumber s.start.dayNumber) := by
  have bound : Weekday.indexOfNumber s.start.dayNumber < 7 := Nat.mod_lt _ (by decide)
  unfold keeps keepsYearDay
  rw [bare.months, bare.weekNumbers, bare.ordinals, bare.monthDays, bare.yearDays, bare.weekdays]
  split
  · rename_i weekly
    have found := any_index bound (j := Weekday.indexOfNumber s.start.dayNumber)
    have nonempty : (Weekday.all.filter fun day =>
        day.index == Weekday.indexOfNumber s.start.dayNumber).isEmpty = false := by
      cases empty : (Weekday.all.filter fun day =>
          day.index == Weekday.indexOfNumber s.start.dayNumber) with
      | nil =>
        rw [empty, List.any_nil, beq_self_eq_true] at found
        cases found
      | cons => rfl
    rw [nonempty, any_index bound]
    simp only [List.isEmpty_nil, Bool.true_or, Bool.false_or, Bool.true_and, Bool.and_true,
      Option.isNone_none, beq_iff_eq, weekly, forall_const]
    exact eq_comm
  · rename_i other
    simp [other]

theorem step_pos (s : Series) : 0 < s.step := by
  refine Nat.mul_pos s.interval_pos ?_
  cases s.frequency <;> decide

/-- What the start's clock shows after some steps, day and time of day, for each frequency. -/
theorem after_weekly (weekly : s.frequency = .weekly) (steps : Nat) :
    s.after steps / 86400 + 1 = s.start.dayNumber + steps * s.interval * 7 ∧
      s.after steps % 86400 = s.start.secondOfDay := by
  have whole : steps * s.step = steps * s.interval * 7 * 86400 := by
    rw [step, if_pos weekly, ← Nat.mul_assoc, Nat.mul_assoc _ 7 86400]
  unfold after Timestamp.dayNumber Timestamp.secondOfDay
  rw [whole]
  omega

theorem after_other (other : s.frequency ≠ .weekly) (steps : Nat) :
    s.after steps = s.start.seconds + steps * s.interval * (86400 / unitsPerDay s.frequency) := by
  rw [after, step, if_neg other, Nat.mul_assoc]

/-- A period of a day or shorter begins with what the clock shows after some steps, as
far as it is no shorter. -/
theorem period_other (bare : s.IsBare) (other : s.frequency ≠ .weekly) (steps : Nat) :
    (s.firstPeriod + steps * s.interval) / unitsPerDay s.frequency = s.after steps / 86400 + 1 ∧
      (s.firstPeriod + steps * s.interval) * (86400 / unitsPerDay s.frequency) +
        s.start.seconds % (86400 / unitsPerDay s.frequency) = s.after steps + 86400 := by
  rw [after_other other]
  unfold firstPeriod Timestamp.hour Timestamp.secondOfDay Timestamp.dayNumber
  generalize steps * s.interval = units
  cases kind : s.frequency with
  | yearly => exact absurd kind bare.notYearly
  | monthly => exact absurd kind bare.notMonthly
  | weekly => exact absurd kind other
  | daily =>
    simp only [unitsPerDay]
    omega
  | hourly =>
    simp only [unitsPerDay]
    omega
  | minutely =>
    simp only [unitsPerDay]
    omega
  | secondly =>
    simp only [unitsPerDay]
    omega

theorem filter_range'_of_unique {p : Nat → Bool} {first length chosen : Nat}
    (inside : first ≤ chosen ∧ chosen < first + length)
    (only : ∀ n, first ≤ n → n < first + length → (p n = true ↔ n = chosen)) :
    (List.range' first length).filter p = [chosen] := by
  have same : (List.range' first length).filter p =
      (List.range' first length).filter (· == chosen) := by
    refine List.filter_congr fun n member => ?_
    obtain ⟨low, high⟩ := List.mem_range'_1.mp member
    rw [Bool.eq_iff_iff, only n low high, beq_iff_eq]
  have once : (List.range' first length).count chosen = 1 :=
    List.count_eq_one_of_mem List.nodup_range' (List.mem_range'_1.mpr inside)
  rw [same, List.filter_beq, once]
  rfl

/-- Periods of a day or shorter are on a single day. -/
theorem single_bare (bare : s.IsBare) (other : s.frequency ≠ .weekly) (period : Nat) :
    s.firstDay period = period / unitsPerDay s.frequency ∧ s.length period = 1 := by
  unfold firstDay length
  cases kind : s.frequency with
  | yearly => exact absurd kind bare.notYearly
  | monthly => exact absurd kind bare.notMonthly
  | weekly => exact absurd kind other
  | _ => exact ⟨rfl, rfl⟩

/-- The days that a bare series chooses in a period are the one of its step. -/
theorem kept_bare (bare : s.IsBare) (table : YearTable) {steps period : Nat}
    (holds : s.Holds steps period) : s.kept table period = [s.after steps / 86400 + 1] := by
  unfold Holds at holds
  unfold kept days
  split at holds
  · rename_i weekly
    obtain ⟨first, last⟩ := holds
    obtain ⟨day, _⟩ := after_weekly weekly steps
    have short := length_weekly weekly period
    have begins : s.firstDay period = period := by
      unfold firstDay
      rw [weekly]
      exact Nat.div_one period
    rw [begins]
    -- A week has each day of the week at most once, and the step falls on the start's.
    refine filter_range'_of_unique ⟨by omega, by omega⟩ fun number low high => ?_
    rw [keeps_bare bare]
    simp only [weekly, forall_const, Weekday.indexOfNumber]
    omega
  · rename_i other
    obtain ⟨day, _⟩ := period_other bare other steps
    obtain ⟨first, single⟩ := single_bare bare other period
    rw [first, single, holds, day]
    exact List.filter_eq_self.mpr fun number _ =>
      (keeps_bare bare table number).mpr fun weekly => absurd weekly other

theorem dayTimes_of_none (hours : s.hours = none) (minutes : s.minutes = none)
    (seconds : s.seconds = none) : s.dayTimes = [s.start.secondOfDay] := by
  unfold dayTimes minuteChoice secondChoice
  rw [hours, minutes, seconds]
  simp only [chosen, clockTimes, List.flatMap_singleton, List.map_cons, List.map_nil]
  unfold Timestamp.hour Timestamp.minute Timestamp.second
  congr 1
  omega

theorem admitsPeriod_bare (bare : s.IsBare) (period : Nat) : s.admitsPeriod period = true := by
  unfold admitsPeriod
  simp only [bare.hours, bare.minutes, bare.seconds, admits, Bool.or_true, Bool.and_self]

/-- The time of day in a period of a bare series is the one of its step. -/
theorem times_bare (bare : s.IsBare) {steps period : Nat} (holds : s.Holds steps period) :
    s.times s.dayTimes period = [s.after steps % 86400] := by
  unfold Holds at holds
  split at holds
  · rename_i weekly
    obtain ⟨_, time⟩ := after_weekly weekly steps
    unfold times
    rw [weekly, time]
    exact dayTimes_of_none bare.hours bare.minutes bare.seconds
  · rename_i other
    obtain ⟨_, begins⟩ := period_other bare other steps
    rw [← holds] at begins
    unfold times
    rw [admitsPeriod_bare bare]
    unfold minuteChoice secondChoice clock
    rw [bare.minutes, bare.seconds]
    cases kind : s.frequency with
    | yearly => exact absurd kind bare.notYearly
    | monthly => exact absurd kind bare.notMonthly
    | weekly => exact absurd kind other
    | daily =>
      rw [kind] at begins
      simp only [unitsPerDay] at begins
      have time : s.start.secondOfDay = s.after steps % 86400 := by
        unfold Timestamp.secondOfDay
        omega
      rw [← time]
      exact dayTimes_of_none bare.hours bare.minutes bare.seconds
    | hourly =>
      rw [kind] at begins
      simp only [unitsPerDay] at begins
      simp only [unitsPerDay, Frequency.isWithinDay, Frequency.isWithinHour,
        Frequency.isWithinMinute, Bool.not_true, Bool.false_eq_true, if_false, clockTimes, chosen,
        List.flatMap_singleton, List.map_cons, List.map_nil]
      unfold Timestamp.minute Timestamp.second Timestamp.secondOfDay
      congr 1
      omega
    | minutely =>
      rw [kind] at begins
      simp only [unitsPerDay] at begins
      simp only [unitsPerDay, Frequency.isWithinDay, Frequency.isWithinHour,
        Frequency.isWithinMinute, Bool.not_true, Bool.false_eq_true, if_false, if_true, clockTimes,
        chosen, List.flatMap_singleton, List.map_cons, List.map_nil]
      unfold Timestamp.second Timestamp.secondOfDay
      congr 1
      omega
    | secondly =>
      rw [kind] at begins
      simp only [unitsPerDay] at begins
      simp only [unitsPerDay, Frequency.isWithinDay, Frequency.isWithinHour,
        Frequency.isWithinMinute, Bool.not_true, Bool.false_eq_true, if_false, if_true, clockTimes,
        List.flatMap_singleton, List.map_cons, List.map_nil]
      congr 1
      omega

theorem yearTable_of_nil (weekNumbers : s.weekNumbers = []) (ordinals : s.ordinals = [])
    (period : Nat) : ∃ table, s.yearTable period = .ok table := by
  unfold yearTable neededWeeks neededOrdinals
  rw [weekNumbers, ordinals]
  exact ⟨_, rfl⟩

theorem hop?_bare (bare : s.IsBare) (period : Nat) :
    ∃ positive, s.hop? period = some ⟨1, positive⟩ := by
  have noUnit : s.ownUnit.1 = none := by
    unfold ownUnit
    split
    · exact bare.hours
    · exact bare.minutes
    · exact bare.seconds
    · rfl
  unfold hop?
  split
  · exact ⟨Nat.one_pos, rfl⟩
  · rename_i wanted round own
    rw [own] at noUnit
    cases noUnit

theorem seek_bare (bare : s.IsBare) {hops : Nat} (positive : 0 < hops) (period : Nat) :
    ∃ next, s.seek hops period = .ok next ∧ next.1 = period + s.interval := by
  obtain ⟨_, hop⟩ := hop?_bare bare period
  cases hops with
  | zero => cases positive
  | succ hops =>
    rw [seek, hop]
    dsimp only
    split
    · exact ⟨_, rfl, congrArg (period + ·) (Nat.one_mul _)⟩
    · rename_i refused
      exact absurd (admitsPeriod_bare bare _) refused

/-- From the period of one step a bare series goes on to the period of the next. -/
theorem nextPeriod_bare (bare : s.IsBare) (table : YearTable) {steps period : Nat}
    (holds : s.Holds steps period) :
    ∃ next, s.nextPeriod (s.passesOver table period) period = .ok next ∧
      s.Holds (steps + 1) next.1 := by
  by_cases weekly : s.frequency = .weekly
  · obtain ⟨later, way⟩ := nextPeriod_weekly weekly (s.passesOver table period) period
    refine ⟨_, way, ?_⟩
    unfold Holds at holds ⊢
    rw [if_pos weekly] at holds ⊢
    obtain ⟨day, _⟩ := after_weekly weekly steps
    obtain ⟨nextDay, _⟩ := after_weekly weekly (steps + 1)
    have index := index_lt s.weekStart
    have positive := s.interval_pos
    rw [length_weekly weekly] at holds ⊢
    rw [Nat.succ_mul, Nat.add_mul] at nextDay
    dsimp only
    unfold Weekday.indexOfNumber at *
    omega
  · have days : (s.days period).length = 1 := by
      rw [Series.days, List.length_range', (single_bare bare weekly period).2]
    have all : s.passesOver table period = false := by
      unfold passesOver
      rw [kept_bare bare table holds, days]
      rfl
    have onward : s.Holds (steps + 1) (period + s.interval) := by
      unfold Holds at holds ⊢
      rw [if_neg weekly] at holds ⊢
      rw [holds, Nat.succ_mul, Nat.add_assoc]
    rw [all]
    unfold nextPeriod
    split
    case h_4 kind => exact absurd kind weekly
    case h_5 =>
      obtain ⟨next, found, same⟩ := seek_bare bare s.cycle_pos period
      rw [← same] at onward
      unfold cycle at found
      dsimp only
      split
      · rename_i other later seen
        cases found.symm.trans seen
        exact ⟨_, rfl, onward⟩
      · rename_i lost
        cases found.symm.trans lost
    all_goals exact ⟨_, rfl, onward⟩

end Recurrence.Series
