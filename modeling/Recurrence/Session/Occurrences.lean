import Recurrence.Combination
import Recurrence.Session.Basic

namespace Recurrence

/-- A rule as callers give it: itself or its text. -/
inductive RuleSource where
  | text (t : Text)
  | rule (r : Rule)

/-- What callers ask of the occurrences of a rule. -/
structure Query where
  after : Datum := .none
  before : Datum := .none
  /-- The most occurrences wanted. -/
  count : Option Int := none
  includeStart : Bool := true

namespace Query

/-- The most occurrences that a query gets. A rule that has no end, asked
without an end, gets as many as the limits say. -/
def limit (query : Query) (schedule : Schedule) (limits : Limits) : Option Int :=
  match query.count with
  | some n => some n
  | none =>
    if query.before = .none ∧ schedule.count = .none ∧ schedule.ends = none then
      some limits.maxOccurrences
    else none

/-- The occurrences of a schedule that answer a query. The start is passed over
before occurrences are counted. -/
def answer (query : Query) (schedule : Schedule) (start : Timestamp) (limits : Limits) :
    Run Fault Timestamp :=
  let inside := schedule.occurrences start query.after query.before false
  let wanted := inside.filter fun t => query.includeStart || t.instant != start.instant
  match query.limit schedule limits with
  | none => wanted
  | some n => wanted.cut n.toNat

end Query

namespace Work

/-- The schedule and the start of a rule that is valid from the start on. The
start is read once more when the rule is validated, but then it is a moment. -/
def resolve (given : Option Limits) (source : RuleSource) (start : Datum) :
    Work (Schedule × Timestamp) := do
  let rule ← match source with
    | .text t => readRule given (.str t)
    | .rule r => pure r
  let moment ← lift Failure.objection (readStart start)
  validate rule (.moment moment)
  return (← toSchedule rule, moment)

/-- The occurrences of a rule that answer a query. -/
def generate (given : Option Limits) (source : RuleSource) (start : Datum) (query : Query) :
    Work (Run Fault Timestamp) := do
  let limits ← limitsOr given
  let (schedule, moment) ← resolve (some limits) source start
  return query.answer schedule moment limits

/-- All occurrences between two moments. -/
def between (given : Option Limits) (source : RuleSource) (start after before : Datum)
    (inclusive : Bool) : Work (List Timestamp) := do
  let (schedule, moment) ← resolve given source start
  lift Failure.fault (schedule.expand moment after before inclusive none)

/-- The first occurrence after a moment. -/
def next (given : Option Limits) (source : RuleSource) (start moment : Datum)
    (inclusive : Bool) : Work (Option Timestamp) := do
  let (schedule, begin) ← resolve given source start
  lift Failure.fault (schedule.occurrenceAfter begin moment inclusive)

/-- The last occurrence before a moment. -/
def previous (given : Option Limits) (source : RuleSource) (start moment : Datum)
    (inclusive : Bool) : Work (Option Timestamp) := do
  let (schedule, begin) ← resolve given source start
  lift Failure.fault (schedule.occurrenceBefore begin moment inclusive)

/-- A direction in which to go from one occurrence to the next. -/
inductive Direction where
  | forward | backward
  deriving DecidableEq, Repr

/-- The occurrences met on a walk from a moment. A step that finds none stays
where it is. -/
def walk (given : Option Limits) (source : RuleSource) (start : Datum) :
    Datum → List Direction → Work (List (Option Timestamp))
  | _, [] => return []
  | moment, direction :: directions => do
    let found ← match direction with
      | .forward => next given source start moment false
      | .backward => previous given source start moment false
    let rest ← walk given source start (found.elim moment Datum.moment) directions
    return found :: rest

/-- Binds each of the rules to the start, which they must be valid from. -/
def bindAll (given : Option Limits) (start : Datum) : List RuleSource → Work (List Series)
  | [] => return []
  | source :: sources => do
    let (schedule, moment) ← resolve given source start
    let series ← lift Failure.fault (Series.ofSchedule schedule moment)
    return series :: (← bindAll given start sources)

/-- Combines a rule with further dates, and with rules and dates to leave out. -/
def combine (given : Option Limits) (source : RuleSource) (start : Datum)
    (dates : List Datum) (excluded : List RuleSource) (excludedDates : List Datum) :
    Work Combination := do
  let (schedule, moment) ← resolve given source start
  let series ← lift Failure.fault (Series.ofSchedule schedule moment)
  let excludedSeries ← bindAll given (.moment moment) excluded
  let aware (d : Datum) : Except Fault Timestamp := d.toMoment.map Timestamp.aware
  let dates ← lift Failure.fault (dates.mapM aware)
  let excludedDates ← lift Failure.fault (excludedDates.mapM aware)
  return { series, dates, excludedSeries, excludedDates }

end Work

/-- Rules that are often wanted, by name. -/
def presets : List (String × String) :=
  [("DAILY", "FREQ=DAILY"), ("WEEKDAYS", "FREQ=WEEKLY;BYDAY=MO,TU,WE,TH,FR"),
    ("WEEKLY", "FREQ=WEEKLY"), ("BIWEEKLY", "FREQ=WEEKLY;INTERVAL=2"),
    ("MONTHLY", "FREQ=MONTHLY"), ("YEARLY", "FREQ=YEARLY")]

end Recurrence
