import Recurrence.Series.Binding
import Recurrence.Series.Search

namespace Recurrence

namespace Run

variable {ε α : Type}

/-- A search that fails when it cannot even begin. -/
def ofExcept : Except ε (Run ε α) → Run ε α
  | .ok run => run
  | .error error => .failed error

end Run

namespace Timestamp

/-- Whether a moment is after another, or the same where that is included. -/
def isPast (t bound : Timestamp) (inclusive : Bool) : Bool :=
  bound.instant < t.instant || (inclusive && t.instant == bound.instant)

end Timestamp

namespace Datum

/-- A moment, which nothing else stands for. -/
def toMoment : Datum → Except Fault Timestamp
  | .moment t => .ok t
  | _ => .error .noSuchMember

/-- A moment, or nothing. -/
def toBound : Datum → Except Fault (Option Timestamp)
  | .none => .ok Option.none
  | d => d.toMoment.map some

end Datum

namespace Series

/-- The occurrences between two moments, where each may be missing. The search
ends with the first that is too late. -/
def window (s : Series) (after before : Option Timestamp) (inclusive : Bool) :
    Run Fault Timestamp :=
  let late := match after with
    | none => s.occurrences
    | some bound => s.occurrences.filter fun t => t.isPast bound inclusive
  match before with
  | none => late
  | some bound => late.takeWhile fun t => bound.isPast t inclusive

end Series

namespace Schedule

/-- The occurrences of a schedule from a start on, between two moments. The
start is bound before the moments are looked at. -/
def occurrences (schedule : Schedule) (start : Timestamp) (after before : Datum)
    (inclusive : Bool) : Run Fault Timestamp :=
  Run.ofExcept do
    let series ← Series.ofSchedule schedule start
    return series.window (← after.toBound) (← before.toBound) inclusive

/-- The occurrences as a list, at most so many as the limit says. The search
goes on to the first that is too many. -/
def expand (schedule : Schedule) (start : Timestamp) (after before : Datum) (inclusive : Bool)
    (limit : Option Int) : Except Fault (List Timestamp) :=
  let run := schedule.occurrences start after before inclusive
  (match limit with
    | none => run
    | some n => run.cut n.toNat).collect

/-- The first occurrence after a moment. -/
def occurrenceAfter (schedule : Schedule) (start : Timestamp) (moment : Datum)
    (inclusive : Bool) : Except Fault (Option Timestamp) := do
  let series ← Series.ofSchedule schedule start
  let bound ← moment.toMoment
  series.occurrences.find? fun t => t.isPast bound inclusive

/-- The last occurrence before a moment. -/
def occurrenceBefore (schedule : Schedule) (start : Timestamp) (moment : Datum)
    (inclusive : Bool) : Except Fault (Option Timestamp) := do
  let series ← Series.ofSchedule schedule start
  let bound ← moment.toMoment
  series.occurrences.lastWhile (fun t => bound.isPast t inclusive) none

end Schedule

end Recurrence
