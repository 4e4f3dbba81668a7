import Recurrence.Series.Stride

namespace Recurrence.Series

/-- The moments of a period and all that follow it, in order. The search ends
with the last year. What a period needs to know of its year is found before its
first moment, and the way to the next period is taken after its last. -/
def search (s : Series) (dayTimes : List Nat) (period : Nat) : Run Fault Timestamp :=
  if _inside : period < horizon s.frequency then
    match s.yearTable period with
    | .error fault => .failed fault
    | .ok table =>
      let days := s.days period
      let kept := days.filter (s.keeps table)
      let passedOver := kept.length < days.length
      match s.candidates (s.times dayTimes period) kept with
      | .failed fault => .failed fault
      | .done =>
        match s.nextPeriod passedOver period with
        | .error fault => .failed fault
        | .ok ⟨next, _⟩ => search s dayTimes next
      | .next t rest =>
        .next t fun _ => (rest ()).append fun _ =>
          match s.nextPeriod passedOver period with
          | .error fault => .failed fault
          | .ok ⟨next, _⟩ => search s dayTimes next
  else .done
termination_by horizon s.frequency - period

/-- Whether a moment is not after the end. -/
def isBeforeEnd (s : Series) (t : Timestamp) : Bool :=
  match s.ends with
  | none => true
  | some ends => t.instant ≤ ends.instant

/-- Whether a moment is not before the start. -/
def isAfterStart (s : Series) (t : Timestamp) : Bool := s.start.seconds ≤ t.seconds

/-- The occurrences of a series that is bounded by its end alone. -/
def unlimited (s : Series) : Run Fault Timestamp :=
  ((s.search s.dayTimes s.firstPeriod).takeWhile s.isBeforeEnd).filter s.isAfterStart

/-- The occurrences of a series in order, on the clock of its start. -/
def occurrences (s : Series) : Run Fault Timestamp :=
  match s.count with
  | none => s.unlimited
  | some count => s.unlimited.cut count

end Recurrence.Series
