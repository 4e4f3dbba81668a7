import Recurrence.Proofs.Calendar.DateNumbers

namespace Recurrence.Date

/-- The month that is found for a day of the year is the one that holds it. -/
theorem monthOf_eq {year month day : Nat} (bound : month ≤ 12)
    (after : daysBeforeMonth year month < day) (before : day ≤ daysBeforeMonth year (month + 1)) :
    monthOf year day = month := by
  have whole : daysBeforeMonth year (month + 1) ≤ daysBeforeMonth year 13 :=
    daysBeforeMonth_mono (Nat.succ_le_succ bound)
  rw [daysBeforeMonth_thirteen] at whole
  obtain ⟨_, _, foundAfter, foundBefore⟩ :=
    monthOf_bounds (Nat.one_le_of_lt after) (Nat.le_trans before whole)
  have notLater : monthOf year day ≤ month := by
    by_contra later
    have later : month + 1 ≤ monthOf year day := Nat.lt_of_not_le later
    have := @daysBeforeMonth_mono year _ _ later
    omega
  have notEarlier : month ≤ monthOf year day := by
    by_contra earlier
    have earlier : monthOf year day + 1 ≤ month := Nat.lt_of_not_le earlier
    have := @daysBeforeMonth_mono year _ _ earlier
    omega
  exact Nat.le_antisymm notLater notEarlier

/-- The date that is found for the number of a valid date is that date. -/
theorem ofNumber_number {d : Date} (valid : d.isValid = true) : ofNumber d.number = d := by
  obtain ⟨year, _, _, monthBound, day, dayBound⟩ := isValid_iff.mp valid
  have through : daysBeforeMonth d.year (d.month + 1) ≤ daysBeforeMonth d.year 13 :=
    daysBeforeMonth_mono (Nat.succ_le_succ monthBound)
  have next := daysBeforeYear_succ year
  have month := daysBeforeMonth_succ d.year d.month
  rw [daysBeforeMonth_thirteen] at through
  have sameYear : yearOf d.number = d.year := by
    refine yearOf_eq ?_ ?_
    · unfold number
      omega
    · unfold number
      omega
  have place : d.number - daysBeforeYear d.year = daysBeforeMonth d.year d.month + d.day := by
    unfold number
    omega
  have sameMonth : monthOf d.year (daysBeforeMonth d.year d.month + d.day) = d.month :=
    monthOf_eq monthBound (by omega) (by omega)
  unfold ofNumber
  simp only [sameYear, place, sameMonth, Nat.add_sub_cancel_left]

/-- Whether a number means the day of a date in its month, counted from the first of the
month or, when it is negative, from the last. -/
def IsDayOfMonth (d : Date) (n : Int) : Prop :=
  0 < n ∧ d.day = n ∨ n < 0 ∧ (d.day : Int) = monthLength d.year d.month + 1 + n

/-- Whether a date is the n-th of its weekday in its month: n - 1 weeks before it the month
had begun, and n weeks before it had not. A negative ordinal counts in the same way from
the date to the end of the month. -/
def IsNthInMonth (d : Date) (n : Int) : Prop :=
  if 0 < n then (n - 1) * 7 < d.day ∧ (d.day : Int) ≤ n * 7
  else (d.day : Int) + (-n - 1) * 7 ≤ monthLength d.year d.month ∧
    (monthLength d.year d.month : Int) < d.day + -n * 7

/-- The eighth of April 2025 is the second Tuesday of that month, and the last but three. -/
example : IsNthInMonth ⟨2025, 4, 8⟩ 2 ∧ IsNthInMonth ⟨2025, 4, 8⟩ (-4) := by
  unfold IsNthInMonth
  decide

end Recurrence.Date
