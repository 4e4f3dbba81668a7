import Recurrence.Fault
import Recurrence.Series.Basic

namespace Recurrence

/-- The weeks of a year that begin on a given weekday. Days are counted from
zero on the first of January. Week one is the first with at least four days in
the year. -/
structure YearWeeks where
  year : Nat
  weekStart : Weekday
  deriving DecidableEq, Repr

namespace YearWeeks

/-- The place in the week of the first of January. -/
def newYear (year : Nat) : Nat := Weekday.indexOfNumber (Date.daysBeforeYear year + 1)

/-- The first day of the year on which a week begins. -/
def lead (w : YearWeeks) : Nat := (7 - newYear w.year + w.weekStart.index) % 7

/-- Whether the days before the first beginning of a week make up week one. -/
def leadIsWeekOne (w : YearWeeks) : Bool := 4 ≤ w.lead

/-- The days before week one, which belong to the last week of the year before. -/
def leftOver (w : YearWeeks) : Nat := if w.leadIsWeekOne then 0 else w.lead

/-- The number of days from the beginning of week one, which may be in the year
before, to the end of the year. -/
def span (w : YearWeeks) : Nat :=
  if w.leadIsWeekOne then
    Date.yearLength w.year + (newYear w.year + 7 - w.weekStart.index) % 7
  else Date.yearLength w.year - w.lead

/-- The number of weeks. A last week with fewer than four days in the year
belongs to the next one. -/
def size (w : YearWeeks) : Nat := w.span / 7 + w.span % 7 / 4

/-- The first day of a week, the first of January when the week begins before. -/
def first (w : YearWeeks) (number : Nat) : Nat :=
  if number ≤ 1 then w.leftOver
  else w.leftOver + (number - 1) * 7 - (if w.leadIsWeekOne then 7 - w.lead else 0)

/-- The day after a week with the given first day. -/
def next (w : YearWeeks) (first : Nat) : Nat := first + 7 - (first + 7 - w.lead) % 7

/-- The days of the week that begins with the given first day. -/
def days (w : YearWeeks) (first : Nat) : Nat × Nat := (first, w.next first)

/-- The week meant by a number that counts from the end when it is negative. -/
def resolve? (w : YearWeeks) (number : Int) : Option Nat :=
  let n := if number < 0 then number + w.size + 1 else number
  if 0 < n ∧ n ≤ w.size then some n.toNat else none

/-- The number of the last week of the year before, to which the left over days
of this year belong. -/
def lastBefore (w : YearWeeks) : Nat :=
  let before : YearWeeks := ⟨w.year - 1, w.weekStart⟩
  if before.leadIsWeekOne then
    52 + (Date.yearLength (w.year - 1) +
      (newYear (w.year - 1) + 7 - w.weekStart.index) % 7) % 7 / 4
  else 52 + (Date.yearLength w.year - w.leftOver) % 7 / 4

/-- Whether the days that are left over before week one belong to one of the
numbered weeks, which asks for the year before. -/
def claimsLeftOver (w : YearWeeks) (numbers : List Int) : Except Fault Bool :=
  if w.leftOver = 0 then .ok false
  else if numbers.contains (-1) then .ok true
  else if w.year ≤ 1 then .error .badValue
  else .ok (numbers.contains (w.lastBefore : Int))

/-- The days of the numbered weeks, as half-open intervals. Days at the end of
the year that belong to week one of the next year are among them. -/
def intervals (w : YearWeeks) (numbers : List Int) : Except Fault (List (Nat × Nat)) := do
  let own := (numbers.filterMap w.resolve?).map fun number => w.days (w.first number)
  let firstAfter := w.first (w.size + 1)
  let after :=
    if numbers.contains 1 ∧ firstAfter < Date.yearLength w.year then [w.days firstAfter] else []
  let before := if ← w.claimsLeftOver numbers then [(0, w.leftOver)] else []
  return own ++ after ++ before

end YearWeeks

end Recurrence
