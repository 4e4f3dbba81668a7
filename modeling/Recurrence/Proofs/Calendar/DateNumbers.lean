import Mathlib.Algebra.Group.Nat.Defs
import Mathlib.Tactic.ByContra
import Recurrence.Calendar.Date

namespace Recurrence.Date

theorem yearLength_bounds (year : Nat) : 365 ≤ yearLength year ∧ yearLength year ≤ 366 := by
  unfold yearLength
  split <;> omega

theorem daysBeforeYear_succ {year : Nat} (positive : 1 ≤ year) :
    daysBeforeYear (year + 1) = daysBeforeYear year + yearLength year := by
  have four : year / 4 = (year - 1) / 4 + if year % 4 = 0 then 1 else 0 := by split <;> omega
  have hundred : year / 100 = (year - 1) / 100 + if year % 100 = 0 then 1 else 0 := by
    split <;> omega
  have fourHundred : year / 400 = (year - 1) / 400 + if year % 400 = 0 then 1 else 0 := by
    split <;> omega
  have fewer : (year - 1) / 100 ≤ (year - 1) / 4 := Nat.div_le_div_left (by decide) (by decide)
  have centuries : year % 100 = 0 → year % 4 = 0 := by omega
  have eras : year % 400 = 0 → year % 100 = 0 := by omega
  simp only [daysBeforeYear, Nat.add_sub_cancel, four, hundred, fourHundred, yearLength, isLeap,
    Bool.and_eq_true, Bool.or_eq_true, beq_iff_eq, bne_iff_ne, ne_eq]
  clear four hundred fourHundred
  by_cases isFourth : year % 4 = 0
  · by_cases isHundredth : year % 100 = 0
    · by_cases isEra : year % 400 = 0 <;>
        simp only [isFourth, isHundredth, isEra, if_true, if_false, not_true, or_true, or_false,
          and_true, and_false] <;> omega
    · have noEra : ¬year % 400 = 0 := fun era => isHundredth (eras era)
      simp only [isFourth, isHundredth, noEra, if_true, if_false, not_false_eq_true, true_or,
        and_true]
      omega
  · have noHundredth : ¬year % 100 = 0 := fun hundredth => isFourth (centuries hundredth)
    have noEra : ¬year % 400 = 0 := fun era => noHundredth (eras era)
    simp only [isFourth, noHundredth, noEra, if_false, false_and]
    omega

theorem daysBeforeYear_mono {first second : Nat} (positive : 1 ≤ first) (ordered : first ≤ second) :
    daysBeforeYear first ≤ daysBeforeYear second := by
  induction ordered with
  | refl => exact Nat.le_refl _
  | @step year later ih =>
    rw [Nat.succ_eq_add_one, daysBeforeYear_succ (Nat.le_trans positive later)]
    omega

theorem yearOf_le_lastYear {n : Nat} (positive : 0 < n) (bound : n ≤ lastNumber) :
    yearOf n ≤ lastYear := by
  obtain ⟨_, before, _⟩ := yearOf_bounds n positive
  by_contra late
  have ordered := daysBeforeYear_mono (by decide) (Nat.lt_of_not_le late)
  rw [Nat.succ_eq_add_one, ← lastNumber_eq] at ordered
  omega

/-- The year that is found for a day number is the one that holds it. -/
theorem yearOf_eq {year n : Nat} (after : daysBeforeYear year < n)
    (before : n ≤ daysBeforeYear (year + 1)) : yearOf n = year := by
  obtain ⟨found, foundAfter, foundBefore⟩ := yearOf_bounds n (Nat.zero_lt_of_lt after)
  have notLater : yearOf n ≤ year := by
    by_contra later
    have := daysBeforeYear_mono (Nat.le_add_left 1 year) (Nat.lt_of_not_le later)
    omega
  have notEarlier : year ≤ yearOf n := by
    by_contra earlier
    have := daysBeforeYear_mono (Nat.le_add_left 1 (yearOf n)) (Nat.lt_of_not_le earlier)
    omega
  exact Nat.le_antisymm notLater notEarlier

theorem dayOfYear_bounds {n : Nat} (positive : 0 < n) :
    1 ≤ dayOfYear n ∧ dayOfYear n ≤ yearLength (yearOf n) := by
  obtain ⟨year, before, after⟩ := yearOf_bounds n positive
  rw [daysBeforeYear_succ year] at after
  unfold dayOfYear
  omega

theorem daysBeforeMonth_succ (year month : Nat) :
    daysBeforeMonth year (month + 1) = daysBeforeMonth year month + monthLength year month := rfl

/-- The months fill the year. -/
theorem daysBeforeMonth_thirteen (year : Nat) : daysBeforeMonth year 13 = yearLength year := by
  simp only [daysBeforeMonth, monthLength, yearLength]
  split <;> rfl

theorem daysBeforeMonth_mono {year first second : Nat} (ordered : first ≤ second) :
    daysBeforeMonth year first ≤ daysBeforeMonth year second := by
  induction ordered with
  | refl => exact Nat.le_refl _
  | step _ ih => exact Nat.le_trans ih (Nat.le_add_right ..)

theorem daysBeforeMonth_le {year month : Nat} (bound : month ≤ 12) :
    daysBeforeMonth year month ≤ 335 := by
  have december : daysBeforeMonth year 13 = daysBeforeMonth year 12 + 31 := rfl
  have whole := daysBeforeMonth_thirteen year
  have length := yearLength_bounds year
  have ordered := @daysBeforeMonth_mono year _ _ bound
  omega

/-- The month of a day of the year begins before that day and ends not before it. -/
theorem monthOf_bounds {year day : Nat} (positive : 1 ≤ day) (bound : day ≤ yearLength year) :
    1 ≤ monthOf year day ∧ monthOf year day ≤ 12 ∧
      daysBeforeMonth year (monthOf year day) < day ∧
      day ≤ daysBeforeMonth year (monthOf year day + 1) := by
  have first : daysBeforeMonth year 1 = 0 := rfl
  have last := daysBeforeMonth_thirteen year
  unfold monthOf
  repeat' split
  all_goals simp only [first, Nat.reduceAdd]
  all_goals omega

theorem isValid_iff {d : Date} : d.isValid = true ↔
    1 ≤ d.year ∧ d.year ≤ lastYear ∧ 1 ≤ d.month ∧ d.month ≤ 12 ∧ 1 ≤ d.day ∧
      d.day ≤ monthLength d.year d.month := by
  simp only [isValid, Bool.and_eq_true, decide_eq_true_eq, and_assoc]

theorem ofNumber_isValid {n : Nat} (positive : 0 < n) (bound : n ≤ lastNumber) :
    (ofNumber n).isValid = true := by
  obtain ⟨year, _, _⟩ := yearOf_bounds n positive
  have late := yearOf_le_lastYear positive bound
  obtain ⟨day, dayBound⟩ := dayOfYear_bounds positive
  obtain ⟨month, monthBound, before, after⟩ := monthOf_bounds day dayBound
  rw [daysBeforeMonth_succ] at after
  simp only [dayOfYear] at day dayBound before after month monthBound
  rw [isValid_iff]
  simp only [ofNumber]
  omega

/-- The date found for a day number has that number. -/
theorem number_ofNumber {n : Nat} (positive : 0 < n) : (ofNumber n).number = n := by
  obtain ⟨_, yearBefore, _⟩ := yearOf_bounds n positive
  obtain ⟨day, dayBound⟩ := dayOfYear_bounds positive
  obtain ⟨_, _, before, _⟩ := monthOf_bounds day dayBound
  simp only [dayOfYear] at before
  simp only [ofNumber, number]
  omega

theorem monthLength_le (year month : Nat) : monthLength year month ≤ 31 := by
  unfold monthLength
  split <;> first | omega | (split <;> omega)

theorem le_monthLength {year month : Nat} (positive : 1 ≤ month) (bound : month ≤ 12) :
    28 ≤ monthLength year month := by
  have cases : month = 1 ∨ month = 2 ∨ month = 3 ∨ month = 4 ∨ month = 5 ∨ month = 6 ∨ month = 7 ∨
      month = 8 ∨ month = 9 ∨ month = 10 ∨ month = 11 ∨ month = 12 := by omega
  have february : 28 ≤ if isLeap year then 29 else 28 := by split <;> omega
  rcases cases with rfl | rfl | rfl | rfl | rfl | rfl | rfl | rfl | rfl | rfl | rfl | rfl
  case inr.inl => exact february
  all_goals exact Nat.le_of_ble_eq_true rfl

/-- The fields of a valid date have the width that texts give them. -/
theorem field_bounds {d : Date} (valid : d.isValid = true) :
    d.year < 10 ^ 4 ∧ d.month < 10 ^ 2 ∧ d.day < 10 ^ 2 := by
  have short := monthLength_le d.year d.month
  have last : lastYear = 9999 := rfl
  rw [isValid_iff] at valid
  omega

end Recurrence.Date
