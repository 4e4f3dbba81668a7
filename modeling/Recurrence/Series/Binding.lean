import Recurrence.Schedule.Basic
import Recurrence.Fault
import Recurrence.Series.Basic

namespace Recurrence

/-- The integer that a number equals. -/
def Datum.whole? (d : Datum) : Option Int :=
  match d.asNumber? with
  | some (.inl n) => some n
  | some (.inr x) => x.whole?
  | _ => Option.none

namespace Series

/-- Whether values can be collected and brought into order: numbers only, texts
only, or all the same value. -/
def sortable (ds : List Datum) : Bool :=
  ds.all Datum.collectable &&
    (ds.all (fun d => d.asNumber?.isSome) || ds.all (fun d => d.asText?.isSome) ||
      match ds with
      | [] => true
      | d :: rest => rest.all d.same)

/-- The numbers of a list part that may hold other things, which no day and no
time ever matches. An empty part does not constrain. -/
def readWanted (ds : List Datum) : Except Fault (Option (List Int)) :=
  if ds.isEmpty then .ok none
  else if sortable ds then .ok (some (ds.filterMap Datum.whole?))
  else .error .wrongKind

/-- The numbers of a list part that must be integers of a range. -/
def readStrict (low high : Int) (zeroAllowed : Bool) : List Datum → Except Fault (List Int)
  | [] => .ok []
  | d :: ds =>
    match d.asIntOrBool? with
    | none => .error .wrongKind
    | some n =>
      if low ≤ n ∧ n ≤ high ∧ (n ≠ 0 ∨ zeroAllowed) then do
        let ns ← readStrict low high zeroAllowed ds
        return n :: ns
      else .error .badValue

/-- The days of the month. Zero is no day, and zeros alone do not constrain. -/
def readMonthDays (ds : List Datum) : Except Fault (Option (List Int)) :=
  if ds.all fun d => d.asNumber?.isSome then
    let days := ds.filter fun d => d.compareInt? 0 != some (some .eq)
    .ok (if days.isEmpty then none else some (days.filterMap Datum.whole?))
  else .error .wrongKind

/-- The week numbers, of any size. -/
def readWeekNumbers (ds : List Datum) : Except Fault (List Int) :=
  ds.mapM fun d =>
    match d.asIntOrBool? with
    | some n => .ok n
    | none => .error .wrongKind

/-- A weekday choice: plain, or with its ordinal where the period has one. An
ordinal that counts as false is none, except for the number zero, which is no
ordinal at all. -/
def readChoice (frequency : Frequency) (choice : DayChoice) :
    Except Fault (Weekday ⊕ (Int × Weekday)) :=
  match choice with
  | .every day => .ok (.inl day)
  | .nth ordinal day =>
    if ordinal.compareInt? 0 == some (some .eq) then .error .badValue
    else if frequency.isWithinMonth || !ordinal.truthy then .ok (.inl day)
    else
      match ordinal.asIntOrBool? with
      | some n => .ok (.inr (n, day))
      | none => .error .wrongKind

/-- The numbers of a part of the clock. Those of units shorter than the period
are all made into times, so they must exist; of the period's own unit only those
are kept that its intervals can reach; the others are a mere condition. -/
def readClockPart (size : Nat) (finer own : Bool) (interval start : Nat) (ds : List Datum) :
    Except Fault (Option (List Int)) := do
  if ds.isEmpty then return none
  if finer then
    return some (← readStrict 0 (size - 1) true ds)
  let wanted ← readWanted ds
  if !own then return wanted
  let step := Nat.gcd interval size
  if step = 1 then return wanted
  if ds.any fun d => d.asNumber?.isNone then throw .wrongKind
  let reached := (wanted.getD []).filter fun n : Int => (n - (start : Int)) % (step : Int) == 0
  if reached.isEmpty then throw .badValue
  return some reached

/-- The number of occurrences that a count admits. A fraction does not count. -/
def readCount (d : Datum) : Except Fault (Option Nat) :=
  match d with
  | .none => .ok none
  | .float (.infinite false) | .float .notANumber => .ok none
  | _ =>
    match d.asNumber? with
    | none => .error .wrongKind
    | some (.inl n) => .ok (some n.toNat)
    | some (.inr x) => .ok (some (x.floor?.getD 0).toNat)

/-- Whether the rule says nothing about days, so that the start does. -/
def leavesDaysOpen (schedule : Schedule) : Bool :=
  schedule.weekNumbers.isEmpty && schedule.yearDays.isEmpty && schedule.monthDays.isEmpty &&
    schedule.weekdays.isEmpty

/-- The hours, minutes and seconds wanted, each read for the start's own. -/
def readClock (schedule : Schedule) (interval : Nat) (start : Timestamp) :
    Except Fault (Option (List Int) × Option (List Int) × Option (List Int)) := do
  let frequency := schedule.frequency
  let hours ← readClockPart 24 (!frequency.isWithinDay) (frequency == .hourly) interval
    start.hour schedule.hours
  let minutes ← readClockPart 60 (!frequency.isWithinHour) (frequency == .minutely) interval
    start.minute schedule.minutes
  let seconds ← readClockPart 60 (!frequency.isWithinMinute) (frequency == .secondly) interval
    start.second schedule.seconds
  return (hours, minutes, seconds)

/-- The series with the start's day of the year, of the month or of the week
where the rule says nothing about days. -/
def fillDays (schedule : Schedule) (s : Series) : Series :=
  if leavesDaysOpen schedule then
    match s.frequency with
    | .yearly =>
      { s with
        months := if s.months.isEmpty then [s.start.date.month] else s.months
        monthDays := some [(s.start.date.day : Int)] }
    | .monthly => { s with monthDays := some [(s.start.date.day : Int)] }
    | .weekly =>
      { s with
        weekdays := Weekday.all.filter fun day =>
          day.index == Weekday.indexOfNumber s.start.dayNumber }
    | _ => s
  else s

/-- Binds a schedule to its start, whose hour, minute and second stand for those
that are not given. -/
def ofSchedule (schedule : Schedule) (start : Timestamp) : Except Fault Series := do
  let start := start.aware.cutSeconds
  let frequency := schedule.frequency
  let interval := (schedule.interval.asIntOrBool?.getD 1).toNat
  let choices ← schedule.weekdays.mapM (readChoice frequency)
  let setPositions ← readStrict (-366) 366 false schedule.setPositions
  let months := schedule.months.filterMap Datum.toMonth?
  let yearDays ← readWanted schedule.yearDays
  let monthDays ← readMonthDays schedule.monthDays
  let weekNumbers ← readWeekNumbers schedule.weekNumbers
  let weekdays := choices.filterMap Sum.getLeft?
  let ordinals := choices.filterMap Sum.getRight?
  let (hours, minutes, seconds) ← readClock schedule interval start
  let count ← readCount schedule.count
  if frequency == .yearly && !ordinals.isEmpty &&
      schedule.months.any fun d => d.asIntOrBool?.isNone then
    throw .wrongKind
  let ends := schedule.ends
  let weekStart := schedule.weekStart
  let positive : 0 < max 1 interval := by omega
  return fillDays schedule {
    frequency, interval := max 1 interval, weekStart, start, ends, count, setPositions, months,
    monthDays, yearDays, weekNumbers, weekdays, ordinals, hours, minutes, seconds,
    interval_pos := positive }

end Series

end Recurrence
