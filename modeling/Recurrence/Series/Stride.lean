import Recurrence.Series.Period

namespace Recurrence.Series

/-- The numbers that the period's own unit may have, where they are given, and
the number of units after which they repeat. -/
def ownUnit (s : Series) : Option (List Int) × Nat :=
  match s.frequency with
  | .hourly => (s.hours, 24)
  | .minutely => (s.minutes, 60)
  | .secondly => (s.seconds, 60)
  | _ => (none, 1)

/-- The number of intervals from a period to the next one whose own unit is
wanted. They repeat after one round, so the search ends there. -/
def hop? (s : Series) (period : Nat) : Option { n : Nat // 0 < n } :=
  match s.ownUnit with
  | (none, _) => some ⟨1, by omega⟩
  | (some wanted, round) =>
    match found : (List.range' 1 round).find? fun n =>
        wanted.contains (((period + n * s.interval) % round : Nat) : Int) with
    | none => none
    | some n =>
      some ⟨n, by
        have member := List.mem_of_find?_eq_some found
        simp only [List.mem_range'] at member
        omega⟩

/-- The next period of a series within the day that is in the hours, minutes and
seconds wanted, within the given number of hops. -/
def seek (s : Series) : Nat → (period : Nat) → Except Fault { next : Nat // period < next }
  | 0, _ => .error .badValue
  | hops + 1, period =>
    match s.hop? period with
    | none => .error .wrongKind
    | some ⟨n, positive⟩ =>
      have later : period < period + n * s.interval := by
        have := Nat.mul_pos positive s.interval_pos
        omega
      if s.admitsPeriod (period + n * s.interval) then .ok ⟨_, later⟩
      else
        match seek s hops (period + n * s.interval) with
        | .ok ⟨next, after⟩ => .ok ⟨next, Nat.lt_trans later after⟩
        | .error fault => .error fault

/-- The last period of a day that is reached from a period by whole intervals. -/
def lastOfDay (s : Series) (period : Nat) : Nat :=
  let units := unitsPerDay s.frequency
  period + (units - 1 - period % units) / s.interval * s.interval

/-- The period after a given one. A series within the day goes on from the end
of the day when a day was passed over; weeks are aligned to their beginning. -/
def nextPeriod (s : Series) (passedOver : Bool) (period : Nat) :
    Except Fault { next : Nat // period < next } :=
  match s.frequency with
  | .yearly | .monthly | .daily =>
    .ok ⟨period + s.interval, by have := s.interval_pos; omega⟩
  | .weekly =>
    .ok ⟨period + s.interval * 7 - (Weekday.indexOfNumber period + 7 - s.weekStart.index) % 7, by
      have := s.interval_pos
      omega⟩
  | f =>
    let start := if passedOver then s.lastOfDay period else period
    have later : period ≤ start := by
      simp only [start, lastOfDay]
      split <;> omega
    match s.seek (unitsPerDay f / Nat.gcd s.interval (unitsPerDay f)) start with
    | .ok ⟨next, after⟩ => .ok ⟨next, Nat.lt_of_le_of_lt later after⟩
    | .error fault => .error fault

end Recurrence.Series
