namespace Recurrence

/-- A day of the proleptic Gregorian calendar by year, month and day of month. -/
structure Date where
  year : Nat
  month : Nat
  day : Nat
  deriving DecidableEq, Repr

namespace Date

/-- The last year that a date can have; the first is year one. -/
def lastYear : Nat := 9999

/-- Years divisible by four are leap years, except the centuries that are not
divisible by four hundred. -/
def isLeap (year : Nat) : Bool := year % 4 == 0 && (year % 100 != 0 || year % 400 == 0)

/-- The number of days in a year. -/
def yearLength (year : Nat) : Nat := if isLeap year then 366 else 365

/-- The number of days in a month; there are none in a month that does not exist. -/
def monthLength (year month : Nat) : Nat :=
  match month with
  | 1 => 31
  | 2 => if isLeap year then 29 else 28
  | 3 => 31
  | 4 => 30
  | 5 => 31
  | 6 => 30
  | 7 => 31
  | 8 => 31
  | 9 => 30
  | 10 => 31
  | 11 => 30
  | 12 => 31
  | _ => 0

/-- The number of days before the first of January of a year, counted from the
first of January of year one. -/
def daysBeforeYear (year : Nat) : Nat :=
  let y := year - 1
  365 * y + y / 4 - y / 100 + y / 400

/-- The number of days of the year before the first of a month. -/
def daysBeforeMonth (year month : Nat) : Nat :=
  match month with
  | 0 => 0
  | m + 1 => daysBeforeMonth year m + monthLength year m

/-- The number of the day, where the first of January of year one is day one. -/
def number (d : Date) : Nat := daysBeforeYear d.year + daysBeforeMonth d.year d.month + d.day

/-- Whether the year is in range, the month exists and has the day. -/
def isValid (d : Date) : Bool :=
  1 ≤ d.year && d.year ≤ lastYear && 1 ≤ d.month && d.month ≤ 12 && 1 ≤ d.day &&
    d.day ≤ monthLength d.year d.month

/-- The year that holds a day number: the mean year length gives it up to one
year, which the two comparisons mend. -/
def yearOf (number : Nat) : Nat :=
  let guess := (number - 1) * 400 / 146097 + 1
  if number ≤ daysBeforeYear guess then guess - 1
  else if daysBeforeYear (guess + 1) < number then guess + 1
  else guess

/-- The place of a day in its year, counted from one. -/
def dayOfYear (number : Nat) : Nat := number - daysBeforeYear (yearOf number)

/-- The month that holds a given day of the year: the last one that begins
before it. -/
def monthOf (year dayOfYear : Nat) : Nat :=
  if daysBeforeMonth year 7 < dayOfYear then
    if daysBeforeMonth year 10 < dayOfYear then
      if daysBeforeMonth year 12 < dayOfYear then 12
      else if daysBeforeMonth year 11 < dayOfYear then 11
      else 10
    else if daysBeforeMonth year 9 < dayOfYear then 9
    else if daysBeforeMonth year 8 < dayOfYear then 8
    else 7
  else if daysBeforeMonth year 4 < dayOfYear then
    if daysBeforeMonth year 6 < dayOfYear then 6
    else if daysBeforeMonth year 5 < dayOfYear then 5
    else 4
  else if daysBeforeMonth year 3 < dayOfYear then 3
  else if daysBeforeMonth year 2 < dayOfYear then 2
  else 1

/-- The date with the given day number. -/
def ofNumber (number : Nat) : Date :=
  let year := yearOf number
  let ordinal := number - daysBeforeYear year
  let month := monthOf year ordinal
  ⟨year, month, ordinal - daysBeforeMonth year month⟩

/-- The number of the thirty-first of December of the last year. -/
def lastNumber : Nat := 3652059

theorem lastNumber_eq : lastNumber = daysBeforeYear (lastYear + 1) := rfl

/-- A day number lies in the year that is found for it. -/
theorem yearOf_bounds (n : Nat) (positive : 0 < n) :
    1 ≤ yearOf n ∧ daysBeforeYear (yearOf n) < n ∧ n ≤ daysBeforeYear (yearOf n + 1) := by
  by_cases early : n ≤ daysBeforeYear ((n - 1) * 400 / 146097 + 1)
  · have year : yearOf n = (n - 1) * 400 / 146097 + 1 - 1 := by simp [yearOf, early]
    rw [year]
    simp only [daysBeforeYear] at *
    omega
  · by_cases late : daysBeforeYear ((n - 1) * 400 / 146097 + 1 + 1) < n
    · have year : yearOf n = (n - 1) * 400 / 146097 + 1 + 1 := by simp [yearOf, early, late]
      rw [year]
      simp only [daysBeforeYear] at *
      omega
    · have year : yearOf n = (n - 1) * 400 / 146097 + 1 := by simp [yearOf, early, late]
      rw [year]
      simp only [daysBeforeYear] at *
      omega

end Date

end Recurrence
