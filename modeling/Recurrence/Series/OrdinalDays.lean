import Recurrence.Series.YearWeeks

namespace Recurrence.Series

/-- The days of a year, counted from zero on the first of January, for which the
weekday is looked up: the year and some days behind it. Nothing is known of
later days. -/
def knownDays (year : Nat) : Nat := 385 - YearWeeks.newYear year

/-- The place in the week of a day of the year. -/
def weekdayAt (year day : Nat) : Nat := (YearWeeks.newYear year + day) % 7

/-- The day on which a weekday occurs for the given time in a stretch of the
year, counted from its end when the ordinal is negative. A stretch without that
many gives no day; a day for which no weekday is known is an error. -/
def ordinalDay (year first last : Nat) (ordinal : Int) (day : Weekday) :
    Except Fault (Option Nat) :=
  let known := knownDays year
  if ordinal < 0 then
    let base : Int := last + (ordinal + 1) * 7
    if base < -(known : Int) then .error .outOfBounds
    else if base < 0 then .ok none
    else
      let back := (weekdayAt year base.toNat + 7 - day.index) % 7
      let found : Int := base - back
      .ok (if (first : Int) ≤ found then some found.toNat else none)
  else
    let base : Int := first + (ordinal - 1) * 7
    if (known : Int) ≤ base then .error .outOfBounds
    else
      let found := base.toNat + (7 - weekdayAt year base.toNat + day.index) % 7
      .ok (if found ≤ last then some found else none)

/-- The first and the last day of a month, counted in its year. -/
def monthStretch (year month : Nat) : Nat × Nat :=
  let first := Date.daysBeforeMonth year month
  (first, first + Date.monthLength year month - 1)

/-- The stretches of the year in which weekdays are counted. -/
def stretches (s : Series) (year month : Nat) : List (Nat × Nat) :=
  match s.frequency with
  | .monthly => [monthStretch year month]
  | _ =>
    if s.months.isEmpty then [(0, Date.yearLength year - 1)]
    else s.months.map (monthStretch year)

/-- The days of the year that are chosen by their weekday and its ordinal. -/
def ordinalDays (s : Series) (year month : Nat) : Except Fault (List Nat) := do
  let found ← (s.stretches year month).mapM fun (first, last) =>
    s.ordinals.mapM fun (ordinal, day) => ordinalDay year first last ordinal day
  return found.flatten.filterMap id

end Recurrence.Series
