import Recurrence.Fault
import Recurrence.Rule.Basic
import Recurrence.Schedule.Diagnostic

namespace Recurrence

/-- How the making or the check of a schedule ends when it does not succeed:
with a diagnostic, or because a value does not fit the operation at all. -/
inductive Refusal where
  | fault (fault : Fault)
  | diagnostic (diagnostic : Diagnostic)
  deriving DecidableEq

namespace Schedule

/-- The greatest interval of a schedule. -/
def maxInterval : Int := 65535

/-- The items of a value that has items, whether or not it counts as true. -/
def itemsOf (d : Datum) : Except Refusal (List Datum) :=
  match d.items? with
  | some items => .ok items
  | none => .error (.fault .wrongKind)

/-- Checks that each value is a month. -/
def checkMonths : List Datum → Except Refusal Unit
  | [] => .ok ()
  | month :: months =>
    if !month.collectable then .error (.fault .wrongKind)
    else if month.toMonth?.isNone then .error (.diagnostic (.invalidMonth month))
    else checkMonths months

/-- Reads the weekday choices, each of which must name its day by a weekday. -/
def readChoices : List Datum → Except Refusal (List DayChoice)
  | [] => .ok []
  | value :: values =>
    match DayChoice.ofDatum? value with
    | none => .error (.diagnostic (.invalidWeekday value))
    | some choice => do
      let choices ← readChoices values
      return choice :: choices

/-- The end of a schedule in UTC, with all its microseconds. -/
def readEnd (d : Datum) : Except Refusal (Option Timestamp) :=
  match d with
  | .none => .ok none
  | .moment t =>
    match t.toUtc? with
    | some u => .ok (some u)
    | none => .error (.fault .overflow)
  | _ => .error (.fault .noSuchMember)

/-- The frequency offered, which must be one itself and not its name. -/
def frequencyOf (d : Draft) : Except Refusal Frequency :=
  match d .frequency with
  | .frequency f => .ok f
  | value => .error (.diagnostic (.invalidFrequency value))

/-- The start of the week offered, which must be a weekday itself. -/
def weekStartOf (d : Draft) : Except Refusal Weekday :=
  match d .weekStart with
  | .weekday w => .ok w
  | value => .error (.diagnostic (.invalidWeekStart value))

/-- Checks that the interval is an integer from one to the greatest one. -/
def checkInterval (d : Draft) : Except Refusal Unit :=
  match (d .interval).asIntOrBool? with
  | some n =>
    if 1 ≤ n ∧ n ≤ maxInterval then .ok () else .error (.diagnostic (.invalidInterval (d .interval)))
  | none => .error (.diagnostic (.invalidInterval (d .interval)))

/-- Makes a schedule of the values of its parts. Frequency and start of the week
must be what they are and not names; the interval must be an integer from one
to the greatest one; months must be months and weekdays weekdays. -/
def construct (d : Draft) : Except Refusal Schedule := do
  let frequency ← frequencyOf d
  let weekStart ← weekStartOf d
  checkInterval d
  let months ← itemsOf (d (.list .month))
  checkMonths months
  let weekdays ← readChoices (← itemsOf (d (.list .weekday)))
  let ends ← readEnd (d .ends)
  let setPositions ← itemsOf (d (.list .setPosition))
  let monthDays ← itemsOf (d (.list .monthDay))
  let yearDays ← itemsOf (d (.list .yearDay))
  let weekNumbers ← itemsOf (d (.list .weekNumber))
  let hours ← itemsOf (d (.list .hour))
  let minutes ← itemsOf (d (.list .minute))
  let seconds ← itemsOf (d (.list .second))
  return {
    frequency, interval := d .interval, count := d .count, ends, weekStart, setPositions, months,
    monthDays, yearDays, weekNumbers, weekdays, hours, minutes, seconds }

/-- Makes a schedule of named values. The frequency must be among them, and
every name must be a part's. -/
def ofNamed (named : List (Text × Datum)) : Except Refusal Schedule :=
  match Draft.partsOf? named with
  | none => .error (.fault .wrongKind)
  | some values =>
    if values.any fun entry => entry.1 = .frequency then
      construct (Draft.default.setAll values)
    else .error (.fault .wrongKind)

end Schedule

end Recurrence
