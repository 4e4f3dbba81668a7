import Recurrence.Calendar.Timestamp
import Recurrence.Calendar.Weekday
import Recurrence.Frequency

namespace Recurrence

namespace Frequency

/-- Whether a period is shorter than a month, so that weekdays have no ordinals. -/
def isWithinMonth : Frequency → Bool
  | monthly | yearly => false
  | _ => true

/-- Whether a period is shorter than an hour. -/
def isWithinHour : Frequency → Bool
  | minutely | secondly => true
  | _ => false

/-- Whether a period is shorter than a minute. -/
def isWithinMinute : Frequency → Bool
  | secondly => true
  | _ => false

end Frequency

/-- A schedule bound to its start, with every part that the start decides filled
in. A part that is `none`, or an empty list where there is no option, does not
constrain. -/
structure Series where
  frequency : Frequency
  interval : Nat
  weekStart : Weekday
  /-- The start, in whole seconds. -/
  start : Timestamp
  ends : Option Timestamp
  count : Option Nat
  setPositions : List Int
  months : List Nat
  /-- Days of the month, counted from its end when negative. -/
  monthDays : Option (List Int)
  /-- Days of the year, counted from its end when negative. -/
  yearDays : Option (List Int)
  weekNumbers : List Int
  weekdays : List Weekday
  /-- Weekdays with their ordinal in the month or year. -/
  ordinals : List (Int × Weekday)
  hours : Option (List Int)
  minutes : Option (List Int)
  seconds : Option (List Int)
  interval_pos : 0 < interval

namespace Series

/-- The numbers below a bound that are wanted, in order, or the given one when
nothing particular is wanted. -/
def chosen (size : Nat) (wanted : Option (List Int)) (fallback : Nat) : List Nat :=
  match wanted with
  | none => [fallback]
  | some numbers => (List.range size).filter fun n => numbers.contains (n : Int)

/-- Whether a number is one of those wanted. -/
def admits (wanted : Option (List Int)) (n : Nat) : Bool :=
  match wanted with
  | none => true
  | some numbers => numbers.contains (n : Int)

/-- The seconds of the day with the given hours, minutes and seconds, in order
when those are. -/
def clockTimes (hours minutes seconds : List Nat) : List Nat :=
  hours.flatMap fun hour =>
    minutes.flatMap fun minute =>
      seconds.map fun second => (hour * 60 + minute) * 60 + second

/-- The minutes of an hour in which there are occurrences. -/
def minuteChoice (s : Series) : List Nat := chosen 60 s.minutes s.start.minute

/-- The seconds of a minute in which there are occurrences. -/
def secondChoice (s : Series) : List Nat := chosen 60 s.seconds s.start.second

/-- The times of a day at which there are occurrences, where the periods are
days or longer. -/
def dayTimes (s : Series) : List Nat :=
  clockTimes (chosen 24 s.hours s.start.hour) s.minuteChoice s.secondChoice

end Series

end Recurrence
