import Recurrence.Proofs.Schedule.Bare
import Recurrence.Proofs.Series.Dated

namespace Recurrence

namespace Schedule

/-- The schedule of a frequency and an interval, with a start of the week and nothing else. -/
def plain (f : Frequency) (k : Nat) (weekStart : Weekday) : Schedule where
  frequency := f
  interval := .int k
  count := .none
  ends := none
  weekStart := weekStart
  setPositions := []
  months := []
  monthDays := []
  yearDays := []
  weekNumbers := []
  weekdays := []
  hours := []
  minutes := []
  seconds := []

variable {f : Frequency} {k : Nat} {weekStart : Weekday} {start : Timestamp}

theorem values_plain (part : ListPart) : (plain f k weekStart).values part = [] := by
  cases part <;> rfl

theorem plain_isSound (low : 1 ≤ k) (high : k ≤ 65535) (moment : Timestamp) :
    (plain f k weekStart).IsSound moment where
  interval := ⟨k, rfl, low, Int.ofNat_le.mpr high⟩
  count := .inl rfl
  numbers := by
    intro part _ _ _ _ d member
    rw [values_plain] at member
    cases member
  weekNumbers := fun given => absurd rfl given
  yearDays := fun given => absurd rfl given
  monthDays := fun given => absurd rfl given
  ordinals := fun _ _ member => nomatch member
  setPositions := fun given => absurd rfl given
  ends := fun _ given => nomatch given

/-- A plain schedule of months or years is bound to a series that leaves the date to its start. -/
theorem bound_isDated (calendar : f = .yearly ∨ f = .monthly) (start : Timestamp) :
    (Series.bound (plain f k weekStart) start (none, none, none)).IsDated := by
  rcases calendar with rfl | rfl
  · constructor
    case calendar => exact .inl rfl
    all_goals rfl
  · constructor
    case calendar => exact .inr rfl
    all_goals rfl

/-- What a plain schedule is bound to progresses by its interval in units of its frequency. -/
theorem progresses_plain (f : Frequency) (weekStart : Weekday) (low : 1 ≤ k) (high : k ≤ 65535)
    (begins : start.aware.cutSeconds = start) :
    ∃ At, (Series.bound (plain f k weekStart) start (none, none, none)).Progresses At
      fun n => start.later? f (n * k) := by
  have whole : (Series.bound (plain f k weekStart) start (none, none, none)).start.micros = 0 := by
    rw [Series.bound_start]
    rfl
  have interval : max 1 (Series.intervalOf (plain f k weekStart)) = k := by
    change max 1 (Int.toNat k) = k
    omega
  have shown : (fun n => (Series.bound (plain f k weekStart) start (none, none, none)).start.later?
      (Series.bound (plain f k weekStart) start (none, none, none)).frequency
      (n * (Series.bound (plain f k weekStart) start (none, none, none)).interval)) =
        fun n => start.later? f (n * k) := by
    rw [Series.bound_start, Series.bound_frequency, Series.bound_interval, begins, interval]
    rfl
  rw [← shown]
  by_cases calendar : f = .yearly ∨ f = .monthly
  · exact ⟨_, Series.progresses_dated (bound_isDated calendar start) whole⟩
  · have bare : (plain f k weekStart).IsBare :=
      ⟨rfl, fun yearly => calendar (.inl yearly), fun monthly => calendar (.inr monthly)⟩
    exact ⟨_, Series.progresses_bare (bound_isBare (plain_isSound low high start) bare start) whole⟩

/-- The occurrences of a plain schedule are a progression from its start. -/
theorem occurrences_plain (f : Frequency) (weekStart : Weekday) (low : 1 ≤ k) (high : k ≤ 65535)
    (begins : start.aware.cutSeconds = start) :
    ∃ series, Series.ofSchedule (plain f k weekStart) start = .ok series ∧
      start.IsProgression f k series.occurrences.items := by
  obtain ⟨At, progresses⟩ := progresses_plain f weekStart low high begins
  have nothing (n : Nat) (far : Timestamp.horizon ≤ n) : start.later? f (n * k) = none :=
    start.later?_of_far f (Nat.le_trans far (Nat.le_mul_of_pos_right n low))
  have own : (Series.bound (plain f k weekStart) start (none, none, none)).start = start := by
    rw [Series.bound_start, begins]
  refine ⟨_, ofSchedule_open (plain_isSound low high start) rfl start, _, nothing,
    progresses.occurrences ?_ ?_ ?_ ?_ nothing⟩
  · rw [own, ← begins]
    rfl
  · rw [Series.bound_count]
    rfl
  · rw [Series.bound_ends]
    rfl
  · rw [own, Nat.zero_mul]
    exact start.later?_zero f

end Schedule

end Recurrence
