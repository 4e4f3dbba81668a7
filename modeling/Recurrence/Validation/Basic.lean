import Recurrence.Schedule.Check

namespace Recurrence

/-- Why a rule cannot be used from a start on. -/
inductive Objection where
  | invalidStart (value : Datum)
  | invalidFrequency (value : Datum)
  | invalidInterval (value : Datum)
  | invalidCount (value : Datum)
  | invalidWeekStart (value : Datum)
  | invalidMonth (value : Datum)
  | invalidWeekday (value : Datum)
  /-- A value that is no integer of the part's range. -/
  | outOfRange (part : ListPart) (value : Datum) (low high : Int)
  | invalidEnd (value : Datum)
  /-- The values make sense one by one, but the schedule does not. -/
  | refused (diagnostic : Diagnostic)
  deriving DecidableEq

/-- How a validation ends when it does not succeed. -/
inductive Rejection where
  | fault (fault : Fault)
  | objection (objection : Objection)
  deriving DecidableEq

namespace Rejection

/-- A refused schedule is an objection to the rule it was made of. -/
def ofRefusal : Refusal → Rejection
  | .fault cause => .fault cause
  | .diagnostic cause => .objection (.refused cause)

end Rejection

/-- The start that a value gives: a moment, where a clock with no known distance
from UTC is taken to show UTC, or the text of one. -/
def readStart (d : Datum) : Except Objection Timestamp :=
  match d with
  | .moment t => .ok t.aware
  | _ =>
    match d.asText?.map Timestamp.read with
    | some (.ok t) => .ok t
    | _ => .error (.invalidStart d)

/-- The ordinals that a weekday may have in any period. -/
def ListPart.ordinalRange : Int × Int := (-53, 53)

namespace Rule

/-- Whether a value is an integer of the range of a list part. -/
def isInRange (low high : Int) (zeroAllowed : Bool) (d : Datum) : Bool :=
  match d.asInt? with
  | some n => low ≤ n && n ≤ high && (n != 0 || zeroAllowed)
  | none => false

/-- Checks that the values of a list part are integers of its range. -/
def checkPart (r : Rule) (part : ListPart) : Except Objection Unit :=
  match part, part.range? with
  | .month, some (low, high, zeroAllowed) =>
    match r.months.find? fun d => !isInRange low high zeroAllowed d with
    | some month => .error (.invalidMonth month)
    | none => .ok ()
  | part, some (low, high, zeroAllowed) =>
    match (r.values part).find? fun d => !isInRange low high zeroAllowed d with
    | some value => .error (.outOfRange part value low high)
    | none => .ok ()
  | _, none => .ok ()

/-- The ordinal and the day of a weekday occurrence in any of the shapes that
stand for one. A single value is a day without ordinal. -/
def occurrenceParts (d : Datum) : Datum × Datum :=
  match d with
  | .nth ordinal day => (ordinal, day)
  | .every day => (.none, day)
  | _ => d.asPair?.getD (.none, d)

/-- Reads a weekday occurrence. The day is looked at before the ordinal. -/
def readChoice (d : Datum) : Except Objection Datum :=
  let (ordinal, day) := occurrenceParts d
  match day.toWeekday with
  | .error _ => .error (.invalidWeekday day)
  | .ok weekday =>
    match ordinal with
    | .none => .ok (.every (.weekday weekday))
    | .int n => .ok (.nth (.int n) (.weekday weekday))
    | _ =>
      .error (.outOfRange .weekday ordinal ListPart.ordinalRange.1 ListPart.ordinalRange.2)

/-- Reads weekday occurrences up to the first that is none. -/
def readChoices : List Datum → Except Objection (List Datum)
  | [] => .ok []
  | d :: ds => do
    let choice ← readChoice d
    let choices ← readChoices ds
    return choice :: choices

/-- The frequency that a rule names. -/
def readFrequency (r : Rule) : Except Objection Frequency :=
  r.frequency.toFrequency.mapError fun _ => .invalidFrequency r.frequency

/-- Checks that the interval is a positive integer. -/
def checkInterval (r : Rule) : Except Objection Unit :=
  match r.interval with
  | .int n => if n < 1 then .error (.invalidInterval r.interval) else .ok ()
  | _ => .error (.invalidInterval r.interval)

/-- Checks that the count, if there is one, is an integer that is not negative. -/
def checkCount (r : Rule) : Except Objection Unit :=
  match r.count with
  | .none => .ok ()
  | .int n => if n < 0 then .error (.invalidCount r.count) else .ok ()
  | _ => .error (.invalidCount r.count)

/-- The start of the week that a rule names. -/
def readWeekStart (r : Rule) : Except Objection Weekday :=
  r.weekStart.toWeekday.mapError fun _ => .invalidWeekStart r.weekStart

/-- Checks that the end, if there is one, is a moment. -/
def checkEnd (r : Rule) : Except Objection Unit :=
  match r.ends with
  | .none | .moment _ => .ok ()
  | value => .error (.invalidEnd value)

/-- The parts of a rule with frequency, start of the week and weekdays settled
and the numbers checked against their ranges. -/
def settle (r : Rule) : Except Objection Draft := do
  let frequency ← r.readFrequency
  r.checkInterval
  r.checkCount
  let weekStart ← r.readWeekStart
  r.checkPart .month
  let weekdays ← readChoices r.weekdays
  (ListPart.all.filter fun part => part != .month).forM r.checkPart
  r.checkEnd
  return r.draft.setAll
    [(.frequency, .frequency frequency), (.weekStart, .weekday weekStart),
      (.list .weekday, .tuple weekdays)]

/-- The schedule of a rule, once its values are settled. -/
def toSchedule (r : Rule) : Except Rejection Schedule := do
  let draft ← r.settle.mapError Rejection.objection
  (Schedule.construct draft).mapError Rejection.ofRefusal

/-- Checks that a rule makes sense and can occur from the start on: the start is
read first, then the parts, and then the schedule is checked. -/
def validate (r : Rule) (start : Datum) : Except Rejection Unit := do
  let moment ← (readStart start).mapError Rejection.objection
  let schedule ← r.toSchedule
  (schedule.check moment).mapError Rejection.ofRefusal

/-- Whether the rule is accepted. Only objections make it false. -/
def isValid (r : Rule) (start : Datum) : Except Fault Bool :=
  match r.validate start with
  | .ok () => .ok true
  | .error (.objection _) => .ok false
  | .error (.fault fault) => .error fault

end Rule

end Recurrence
