import Recurrence.Run
import Recurrence.Series.OrdinalDays

namespace Recurrence.Series

/-- The periods of a series are numbered: a year by itself, a month by the
months since year zero, weeks and days by the number of their first day, and
shorter periods by their units since day zero. This is the number of units of
the period in a day. -/
def unitsPerDay (f : Frequency) : Nat :=
  match f with
  | .hourly => 24
  | .minutely => 1440
  | .secondly => 86400
  | _ => 1

/-- The number of the period that the series starts in. -/
def firstPeriod (s : Series) : Nat :=
  let day := s.start.dayNumber
  match s.frequency with
  | .yearly => s.start.date.year
  | .monthly => s.start.date.year * 12 + (s.start.date.month - 1)
  | .weekly | .daily => day
  | .hourly => day * 24 + s.start.hour
  | .minutely => day * 1440 + s.start.secondOfDay / 60
  | .secondly => day * 86400 + s.start.secondOfDay

/-- The number of the first period that is past the last year. -/
def horizon (f : Frequency) : Nat :=
  match f with
  | .yearly => Date.lastYear + 1
  | .monthly => (Date.lastYear + 1) * 12
  | _ => (Date.lastNumber + 1) * unitsPerDay f

/-- The first day of a period. -/
def firstDay (s : Series) (period : Nat) : Nat :=
  match s.frequency with
  | .yearly => Date.daysBeforeYear period + 1
  | .monthly =>
    Date.daysBeforeYear (period / 12) + Date.daysBeforeMonth (period / 12) (period % 12 + 1) + 1
  | f => period / unitsPerDay f

/-- The number of days of a period. A week ends before the next beginning of a
week, so the first one may be shorter. -/
def length (s : Series) (period : Nat) : Nat :=
  match s.frequency with
  | .yearly => Date.yearLength period
  | .monthly => Date.monthLength (period / 12) (period % 12 + 1)
  | .weekly => 7 - (Weekday.indexOfNumber period + 7 - s.weekStart.index) % 7
  | _ => 1

/-- The days of a period, by their numbers. -/
def days (s : Series) (period : Nat) : List Nat :=
  List.range' (s.firstDay period) (s.length period)

/-- The hour, minute and second of the day at which a short period begins. -/
def clock (f : Frequency) (period : Nat) : Nat × Nat × Nat :=
  let second := period % unitsPerDay f * (86400 / unitsPerDay f)
  (second / 3600, second / 60 % 60, second % 60)

/-- Whether a short period lies in the hours, minutes and seconds wanted. Those
that are shorter than the period do not matter. -/
def admitsPeriod (s : Series) (period : Nat) : Bool :=
  let (hour, minute, second) := clock s.frequency period
  (!s.frequency.isWithinDay || admits s.hours hour) &&
  (!s.frequency.isWithinHour || admits s.minutes minute) &&
  (!s.frequency.isWithinMinute || admits s.seconds second)

/-- The times of the day in a period, where those of long periods are given. -/
def times (s : Series) (dayTimes : List Nat) (period : Nat) : List Nat :=
  if !s.frequency.isWithinDay then dayTimes
  else if !s.admitsPeriod period then []
  else
    let (hour, minute, second) := clock s.frequency period
    clockTimes [hour]
      (if s.frequency.isWithinHour then [minute] else s.minuteChoice)
      (if s.frequency.isWithinMinute then [second] else s.secondChoice)

/-- What is known of the days of the year in which a period begins. -/
structure YearTable where
  newYear : Nat
  /-- The numbered weeks, when there are any to choose. -/
  weeks : List (Nat × Nat)
  /-- The weekdays with an ordinal, when there are any to choose. -/
  ordinals : List Nat

/-- The numbered weeks of a year, when there are any to choose. -/
def neededWeeks (s : Series) (year : Nat) : Except Fault (List (Nat × Nat)) :=
  if s.weekNumbers.isEmpty then .ok [] else YearWeeks.intervals ⟨year, s.weekStart⟩ s.weekNumbers

/-- The weekdays of a year with an ordinal, when there are any to choose. -/
def neededOrdinals (s : Series) (year month : Nat) : Except Fault (List Nat) :=
  if s.ordinals.isEmpty then .ok [] else s.ordinalDays year month

/-- Finds the weeks and the weekdays with an ordinal that a period needs. -/
def yearTable (s : Series) (period : Nat) : Except Fault YearTable := do
  let date := Date.ofNumber (s.firstDay period)
  let weeks ← s.neededWeeks date.year
  let ordinals ← s.neededOrdinals date.year date.month
  return ⟨Date.daysBeforeYear date.year + 1, weeks, ordinals⟩

/-- Whether the day of the month is wanted. -/
def keepsMonthDay (s : Series) (date : Date) : Bool :=
  match s.monthDays with
  | none => true
  | some wanted =>
    wanted.contains (date.day : Int) ||
      wanted.contains ((date.day : Int) - 1 - Date.monthLength date.year date.month)

/-- Whether the day of the year is wanted. -/
def keepsYearDay (s : Series) (number : Nat) : Bool :=
  match s.yearDays with
  | none => true
  | some wanted =>
    let day := Date.dayOfYear number
    wanted.contains (day : Int) ||
      wanted.contains ((day : Int) - 1 - Date.yearLength (Date.yearOf number))

/-- Whether a day is one of those the series chooses. -/
def keeps (s : Series) (table : YearTable) (number : Nat) : Bool :=
  (s.months.isEmpty || s.months.contains (Date.ofNumber number).month) &&
  (s.weekNumbers.isEmpty ||
    table.weeks.any fun (first, next) =>
      first ≤ number - table.newYear && number - table.newYear < next) &&
  (s.weekdays.isEmpty ||
    s.weekdays.any fun day => day.index == Weekday.indexOfNumber number) &&
  (s.ordinals.isEmpty || table.ordinals.contains (number - table.newYear)) &&
  (s.monthDays.isNone || s.keepsMonthDay (Date.ofNumber number)) &&
  s.keepsYearDay number

/-- The timestamp at a time of a day, on the clock of the start. -/
def moment (s : Series) (day time : Nat) : Except Fault Timestamp :=
  Fault.badValue.ifMissing
    (Timestamp.make? (((day - 1) * 86400 + time : Nat) : Int) 0 s.start.offset)

/-- The moments at the given times of a day, and then the rest. -/
def momentsOfDay (s : Series) (day : Nat) : List Nat → (Unit → Run Fault Timestamp) →
    Run Fault Timestamp
  | [], rest => rest ()
  | time :: times, rest =>
    Run.startWith (s.moment day time) fun _ => momentsOfDay s day times rest

/-- The moments at the given times of each of the days. -/
def moments (s : Series) (times : List Nat) : List Nat → Run Fault Timestamp
  | [] => .done
  | day :: days => s.momentsOfDay day times fun _ => moments s times days

/-- The places meant by the set positions among a number of items, in order and
each once. Positive positions count from one, negative ones from the end. -/
def places (s : Series) (size : Nat) : List Nat :=
  let meant := s.setPositions.filterMap fun position =>
    let place : Int := if position < 0 then size + position else position - 1
    if 0 ≤ place ∧ place < size then some place.toNat else none
  (meant.mergeSort fun a b => decide (a ≤ b)).eraseDups

/-- The moments at the set positions. They are all found before the first of
them is given. -/
def momentsAt (s : Series) (times days : List Nat) : Run Fault Timestamp :=
  let found := (s.places (days.length * times.length)).mapM fun place =>
    s.moment (days.getD (place / times.length) 0) (times.getD (place % times.length) 0)
  match found with
  | .ok moments => .ofList moments
  | .error fault => .failed fault

/-- The moments of a period in which the given days are kept. -/
def candidates (s : Series) (times days : List Nat) : Run Fault Timestamp :=
  if s.setPositions.isEmpty || times.isEmpty then s.moments times days
  else s.momentsAt times days

end Recurrence.Series
