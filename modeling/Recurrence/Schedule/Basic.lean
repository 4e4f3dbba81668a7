import Recurrence.Datum.Equality
import Recurrence.Datum.Display
import Recurrence.Part

namespace Recurrence

/-- The weekdays that a rule chooses in a period: every such day, or the one
with the given ordinal. -/
inductive DayChoice where
  | every (day : Weekday)
  | nth (ordinal : Datum) (day : Weekday)
  deriving DecidableEq

namespace DayChoice

/-- The chosen day of the week. -/
def day : DayChoice → Weekday
  | every day => day
  | nth _ day => day

/-- The choice as a value. -/
def toDatum : DayChoice → Datum
  | every day => .every (.weekday day)
  | nth ordinal day => .nth ordinal (.weekday day)

/-- The choice that a value is. Its day must be a weekday itself and not the
name of one. -/
def ofDatum? : Datum → Option DayChoice
  | .every (.weekday day) => some (every day)
  | .nth ordinal (.weekday day) => some (nth ordinal day)
  | _ => none

/-- The code of the day, after the ordinal if there is one. -/
def text (choice : DayChoice) : Text := choice.toDatum.text

theorem ofDatum?_toDatum (choice : DayChoice) : ofDatum? choice.toDatum = some choice := by
  cases choice <;> rfl

end DayChoice

/-- A rule in the terms of its expansion, which is still independent of a
start. Frequency, weekdays and the end are settled; numbers may still be of any
kind that the checks let pass. -/
structure Schedule where
  frequency : Frequency
  interval : Datum
  count : Datum
  ends : Option Timestamp
  weekStart : Weekday
  setPositions : List Datum
  months : List Datum
  monthDays : List Datum
  yearDays : List Datum
  weekNumbers : List Datum
  weekdays : List DayChoice
  hours : List Datum
  minutes : List Datum
  seconds : List Datum
  deriving DecidableEq

namespace Schedule

/-- The values of a list part. -/
def values (s : Schedule) : ListPart → List Datum
  | .setPosition => s.setPositions
  | .month => s.months
  | .monthDay => s.monthDays
  | .yearDay => s.yearDays
  | .weekNumber => s.weekNumbers
  | .weekday => s.weekdays.map DayChoice.toDatum
  | .hour => s.hours
  | .minute => s.minutes
  | .second => s.seconds

/-- Whether any list part other than the set positions constrains. -/
def hasListPart (s : Schedule) : Bool :=
  !s.months.isEmpty || !s.monthDays.isEmpty || !s.yearDays.isEmpty || !s.weekNumbers.isEmpty ||
    !s.weekdays.isEmpty || !s.hours.isEmpty || !s.minutes.isEmpty || !s.seconds.isEmpty

/-- The value of a part. -/
def partValue (s : Schedule) : Part → Datum
  | .frequency => .frequency s.frequency
  | .interval => s.interval
  | .count => s.count
  | .ends => s.ends.elim .none Datum.moment
  | .weekStart => .weekday s.weekStart
  | .list part => .tuple (s.values part)

end Schedule

/-- The month that a number of any kind equals. -/
def Datum.toMonth? (d : Datum) : Option Nat :=
  (List.range' 1 12).find? fun month => d.compareInt? month == some (some .eq)

/-- The length of a month in the years in which it is longest. -/
def Date.longestMonth (month : Nat) : Nat := Date.monthLength 4 month

end Recurrence
