import Recurrence.Schedule.Occurrences

namespace Recurrence

/-- A series together with further dates, and with series and dates that are
taken away from them. -/
structure Combination where
  series : Series
  dates : List Timestamp := []
  excludedSeries : List Series := []
  excludedDates : List Timestamp := []

namespace Combination

/-- Dates in the order of their moments. -/
def inOrder (dates : List Timestamp) : Run Fault Timestamp :=
  .ofList (dates.mergeSort fun a b => decide (a.instant ≤ b.instant))

/-- Whether a search gives the moment next. -/
def gives (t : Timestamp) : Run Fault Timestamp → Bool
  | .next u _ => u.instant == t.instant
  | _ => false

/-- The error that one of the searches has come to. -/
def failure? : List (Run Fault Timestamp) → Option Fault
  | [] => none
  | .failed fault :: _ => some fault
  | _ :: runs => failure? runs

/-- The items that none of the excluded searches gives, each moment once. The
excluded searches go only as far as the items do. -/
def without (last : Option Int) (excluded : List (Run Fault Timestamp)) :
    Run Fault Timestamp → Run Fault Timestamp
  | .done => .done
  | .failed fault => .failed fault
  | .next t rest =>
    if last = some t.instant then without last excluded (rest ())
    else
      let ahead := excluded.map (Run.dropWhile fun u => u.instant < t.instant)
      match failure? ahead with
      | some fault => .failed fault
      | none =>
        if ahead.any (gives t) then without (some t.instant) ahead (rest ())
        else .next t fun _ => without (some t.instant) ahead (rest ())

/-- The occurrences of a combination in order. -/
def occurrences (c : Combination) : Run Fault Timestamp :=
  let included := Run.merge (fun a b => decide (a.instant < b.instant)) (inOrder c.dates)
    c.series.occurrences
  let excluded := inOrder c.excludedDates :: c.excludedSeries.map Series.occurrences
  match included, failure? excluded with
  | .failed fault, _ => .failed fault
  | _, some fault => .failed fault
  | run, none => without none excluded run

end Combination

end Recurrence
