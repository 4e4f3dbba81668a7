import Recurrence.Proofs.Series.Progress

namespace Recurrence.Series

/-- The days from the beginning of the start's week to the start. -/
def intoWeek (s : Series) : Nat := (Weekday.indexOfNumber s.start.dayNumber + 7 - s.weekStart.index) % 7

/-- The weeks of a weekly series: the rest of the start's, and from its beginning
every so many weeks. -/
def IsWeek (s : Series) (week : Nat) : Prop :=
  week = s.start.dayNumber ∨
    ∃ steps, 1 ≤ steps ∧ week + s.intoWeek = s.start.dayNumber + steps * s.interval * 7

/-- A weekly series that picks a day behind the last one in a week that begins
before it. -/
def OverrunsCalendar (s : Series) : Prop :=
  s.frequency = .weekly ∧ ∃ week, s.IsWeek week ∧ week ≤ Date.lastNumber ∧
    ∃ pick ∈ s.picks s.dayTimes (s.kept ⟨0, [], []⟩ week), Date.lastNumber < pick.1

theorem intoWeek_lt (s : Series) : s.intoWeek < 7 := Nat.mod_lt _ (by decide)

theorem firstPeriod_weekly {s : Series} (weekly : s.frequency = .weekly) :
    s.firstPeriod = s.start.dayNumber := by
  unfold firstPeriod
  rw [weekly]

theorem length_weekly {s : Series} (weekly : s.frequency = .weekly) (week : Nat) :
    s.length week = 7 - (Weekday.indexOfNumber week + 7 - s.weekStart.index) % 7 := by
  unfold length
  rw [weekly]

theorem nextPeriod_weekly {s : Series} (weekly : s.frequency = .weekly) (passedOver : Bool)
    (period : Nat) :
    ∃ later, s.nextPeriod passedOver period = .ok ⟨period + s.interval * 7 -
      (Weekday.indexOfNumber period + 7 - s.weekStart.index) % 7, later⟩ := by
  have positive := s.interval_pos
  have later : period < period + s.interval * 7 -
      (Weekday.indexOfNumber period + 7 - s.weekStart.index) % 7 := by omega
  unfold nextPeriod
  split
  case h_4 => exact ⟨later, rfl⟩
  case h_5 other => exact (other weekly).elim
  all_goals
    rename_i kind
    rw [weekly] at kind
    cases kind

theorem index_lt (day : Weekday) : day.index < 7 := by
  cases day <;> decide

/-- A week after the first begins on the day on which weeks do. -/
theorem aligned_of_isWeek {s : Series} {week steps : Nat}
    (later : week + s.intoWeek = s.start.dayNumber + steps * 7) :
    (Weekday.indexOfNumber week + 7 - s.weekStart.index) % 7 = 0 := by
  have day := index_lt s.weekStart
  unfold intoWeek Weekday.indexOfNumber at *
  omega

theorem isWeek_next {s : Series} {week : Nat} (isWeek : s.IsWeek week) :
    s.IsWeek (week + s.interval * 7 -
      (Weekday.indexOfNumber week + 7 - s.weekStart.index) % 7) := by
  have positive := s.interval_pos
  rcases isWeek with rfl | ⟨steps, counted, later⟩
  · refine .inr ⟨1, Nat.le_refl 1, ?_⟩
    have into := s.intoWeek_lt
    rw [Nat.one_mul]
    unfold intoWeek at *
    omega
  · refine .inr ⟨steps + 1, Nat.le_add_left .., ?_⟩
    rw [aligned_of_isWeek later, Nat.succ_mul, Nat.add_mul]
    omega

theorem isWeek_of_reaches {s : Series} (weekly : s.frequency = .weekly) {period : Nat}
    (reached : s.Reaches period) : s.IsWeek period := by
  induction reached with
  | first => exact .inl (firstPeriod_weekly weekly)
  | next _ _ _ way ih =>
    obtain ⟨_, same⟩ := nextPeriod_weekly weekly _ _
    cases way.symm.trans same
    exact isWeek_next ih

theorem reaches_of_isWeek {s : Series} (sound : s.IsSound) (weekly : s.frequency = .weekly)
    {week : Nat} (isWeek : s.IsWeek week) (inside : week < horizon s.frequency) :
    s.Reaches week := by
  have onward {period : Nat} (reached : s.Reaches period) (before : period < horizon s.frequency) :
      s.Reaches (period + s.interval * 7 -
        (Weekday.indexOfNumber period + 7 - s.weekStart.index) % 7) := by
    obtain ⟨table, known⟩ := yearTable_ok sound (by rw [weekly]; decide) (by rw [weekly]; decide)
      (firstDay_pos reached)
    obtain ⟨_, way⟩ := nextPeriod_weekly weekly (s.passesOver table period) period
    exact .next reached before known way
  have first := firstPeriod_weekly weekly
  have into := s.intoWeek_lt
  have positive := s.interval_pos
  rcases isWeek with rfl | ⟨steps, counted, later⟩
  · rw [← first]
    exact .first
  · induction steps generalizing week with
    | zero => cases counted
    | succ steps ih =>
      rw [Nat.succ_mul, Nat.add_mul] at later
      by_cases second : steps = 0
      · subst second
        have reached := onward .first s.firstPeriod_inside
        rw [first, ← intoWeek] at reached
        have same : s.start.dayNumber + s.interval * 7 - s.intoWeek = week := by omega
        rwa [same] at reached
      · have before : week - s.interval * 7 + s.intoWeek =
            s.start.dayNumber + steps * s.interval * 7 := by
          have := Nat.mul_le_mul_right s.interval (Nat.one_le_iff_ne_zero.mpr second)
          omega
        have earlier : week - s.interval * 7 < horizon s.frequency := by omega
        have reached := onward (ih earlier (Nat.one_le_iff_ne_zero.mpr second) before) earlier
        have same : week - s.interval * 7 + s.interval * 7 = week := by
          have := Nat.mul_le_mul_right s.interval (Nat.one_le_iff_ne_zero.mpr second)
          omega
        rwa [aligned_of_isWeek before, same] at reached

theorem kept_of_plain {s : Series} (weeks : s.weekNumbers = []) (ordinals : s.ordinals = [])
    (first second : YearTable) (period : Nat) : s.kept first period = s.kept second period := by
  unfold kept keeps
  rw [weeks, ordinals]
  rfl

theorem complete_iff_of_weekly {s : Series} (sound : s.IsSound) (weekly : s.frequency = .weekly) :
    (s.search s.dayTimes s.firstPeriod).ending = none ↔ ¬s.OverrunsCalendar := by
  have last (period : Nat) : period < horizon s.frequency ↔ period ≤ Date.lastNumber := by
    rw [weekly]
    exact Nat.lt_succ_iff
  have notYearly : s.frequency ≠ .yearly := by
    rw [weekly]
    decide
  have numbers : s.weekNumbers = [] := by
    by_contra numbered
    exact notYearly (sound.weekNumbers numbered).1
  have ordinals : s.ordinals = [] := by
    rw [List.eq_nil_iff_forall_not_mem]
    intro entry member
    rcases (sound.ordinals entry member).2 with ⟨kind, _⟩ | ⟨kind, _⟩ <;>
      rw [weekly] at kind <;> cases kind
  have picks (table : YearTable) (week : Nat) :
      s.picks (s.times s.dayTimes week) (s.kept table week) =
        s.picks s.dayTimes (s.kept ⟨0, [], []⟩ week) := by
    have times : s.times s.dayTimes week = s.dayTimes := by
      rw [times, weekly]
      rfl
    rw [times, kept_of_plain numbers ordinals table ⟨0, [], []⟩]
  rw [ending_search_iff]
  constructor
  · rintro runs ⟨_, week, isWeek, inside, pick, member, beyond⟩
    rw [← last] at inside
    have reached := reaches_of_isWeek sound weekly isWeek inside
    obtain ⟨table, _, within, _⟩ := (runs_iff reached inside).mp (runs week reached inside)
    rw [picks] at within
    have := within pick member
    omega
  · intro within period reached inside
    obtain ⟨table, known⟩ := yearTable_ok sound notYearly (by rw [weekly]; decide)
      (firstDay_pos reached)
    obtain ⟨_, way⟩ := nextPeriod_weekly weekly (s.passesOver table period) period
    rw [runs_iff reached inside]
    refine ⟨table, known, fun pick member => ?_, _, way⟩
    rw [picks] at member
    by_contra beyond
    exact within ⟨weekly, period, isWeek_of_reaches weekly reached, (last period).mp inside, pick,
      member, Nat.lt_of_not_le beyond⟩

end Recurrence.Series
