import Recurrence.Frequency
import Recurrence.Proofs.Calendar.TimestampParts

namespace Recurrence

/-- The same day of the month a number of months later, whether or not that month has it. -/
def Date.addMonths (d : Date) (n : Nat) : Date :=
  let months := d.year * 12 + (d.month - 1) + n
  ⟨months / 12, months % 12 + 1, d.day⟩

namespace Timestamp

/-- What the clock shows a number of seconds later, within the years. -/
def addSeconds? (t : Timestamp) (n : Nat) : Option Timestamp :=
  make? (t.seconds + n : Nat) t.micros t.offset

/-- The same time of day on another date, if there is such a date. -/
def onDate? (t : Timestamp) (d : Date) : Option Timestamp :=
  ofParts? d t.secondOfDay t.micros t.offset

/-- What the clock shows when it goes on by a number of the units that a frequency
names. Weeks and shorter units have a length in seconds. Months and years keep the day
of the month and the time of day, and there is nothing where the day does not exist. -/
def later? (t : Timestamp) (f : Frequency) (n : Nat) : Option Timestamp :=
  match f with
  | .yearly => t.onDate? { t.date with year := t.date.year + n }
  | .monthly => t.onDate? (t.date.addMonths n)
  | .weekly => t.addSeconds? (n * 604800)
  | .daily => t.addSeconds? (n * 86400)
  | .hourly => t.addSeconds? (n * 3600)
  | .minutely => t.addSeconds? (n * 60)
  | .secondly => t.addSeconds? n

/-- The thirtieth of January, at six in the evening, has no counterpart one month later,
but has one two months later. -/
example :
    let t : Timestamp := ⟨2570400, 0, some (-3600), by decide, by decide⟩
    t.date = ⟨1, 1, 30⟩ ∧ t.later? .monthly 1 = none ∧
      (t.later? .monthly 2).map date = some ⟨1, 3, 30⟩ := by
  decide +kernel

theorem addSeconds?_eq_none_iff {t : Timestamp} {n : Nat} :
    t.addSeconds? n = none ↔ horizon ≤ t.seconds + n := by
  have micros := t.micros_lt
  have years : horizon = 315537897600 := rfl
  have found := @make?_isSome_iff (t.seconds + n : Nat) t.micros t.offset
  rw [← Option.isSome_iff_exists] at found
  rw [addSeconds?, ← Option.not_isSome_iff_eq_none, found]
  omega

theorem onDate?_eq_none {t : Timestamp} {d : Date} (invalid : d.isValid = false) :
    t.onDate? d = none := by
  rw [onDate?, ofParts?, if_neg]
  rintro ⟨valid, _⟩
  rw [invalid] at valid
  cases valid

/-- There are no dates behind the last year. -/
theorem onDate?_of_late {t : Timestamp} {d : Date} (late : Date.lastYear < d.year) :
    t.onDate? d = none := by
  refine onDate?_eq_none (Bool.eq_false_iff.mpr fun valid => ?_)
  obtain ⟨_, bound, _⟩ := Date.isValid_iff.mp valid
  omega

/-- No clock goes on by as many units as there are seconds in all the years. -/
theorem later?_of_far (t : Timestamp) (f : Frequency) {n : Nat} (far : horizon ≤ n) :
    t.later? f n = none := by
  have years : horizon = 315537897600 := rfl
  have last : Date.lastYear = 9999 := rfl
  cases f with
  | yearly => exact onDate?_of_late (by dsimp only; omega)
  | monthly => exact onDate?_of_late (by dsimp only [Date.addMonths]; omega)
  | _ => exact addSeconds?_eq_none_iff.mpr (by omega)

theorem onDate?_date (t : Timestamp) : t.onDate? t.date = some t := t.ofParts?_date

theorem later?_zero (t : Timestamp) (f : Frequency) : t.later? f 0 = some t := by
  have same : t.addSeconds? 0 = some t := t.make?_seconds
  cases f with
  | yearly => exact t.onDate?_date
  | monthly =>
    obtain ⟨_, _, low, high, _⟩ := Date.isValid_iff.mp t.date_isValid
    have date : t.date.addMonths 0 = t.date := by
      generalize t.date = d at low high
      obtain ⟨year, month, day⟩ := d
      simp only [Date.addMonths, Date.mk.injEq, and_true] at low high ⊢
      omega
    rw [later?, date]
    exact t.onDate?_date
  | secondly => exact same
  | _ =>
    rw [later?, Nat.zero_mul]
    exact same

/-- Whether some moments are all those, in order, to which the clock comes when it goes
on by no, one, two and more times so many units. -/
def IsProgression (t : Timestamp) (f : Frequency) (k : Nat) (moments : List Timestamp) : Prop :=
  ∃ last, (∀ n, last ≤ n → t.later? f (n * k) = none) ∧
    moments = (List.range last).filterMap fun n => t.later? f (n * k)

/-- A progression begins with what the clock shows up to a time that it does show. -/
theorem IsProgression.exists_eq_append {t : Timestamp} {f : Frequency} {k : Nat}
    {moments : List Timestamp} (progression : t.IsProgression f k moments) {n : Nat}
    (shown : (t.later? f (n * k)).isSome = true) :
    ∃ rest, moments = ((List.range (n + 1)).filterMap fun n => t.later? f (n * k)) ++ rest := by
  obtain ⟨last, nothing, rfl⟩ := progression
  have before : n + 1 ≤ last := by
    by_contra behind
    rw [nothing n (by omega)] at shown
    cases shown
  obtain ⟨more, rfl⟩ := Nat.exists_eq_add_of_le before
  rw [List.range_add, List.filterMap_append]
  exact ⟨_, rfl⟩

end Timestamp

end Recurrence
