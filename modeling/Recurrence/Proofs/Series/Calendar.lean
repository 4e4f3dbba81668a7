import Recurrence.Proofs.Series.Progress

namespace Recurrence.Series

theorem nextPeriod_calendar {s : Series}
    (calendar : s.frequency ∈ [.yearly, .monthly, .daily]) (passedOver : Bool) (period : Nat) :
    ∃ later, s.nextPeriod passedOver period = .ok ⟨period + s.interval, later⟩ := by
  have later : period < period + s.interval := Nat.lt_add_of_pos_right s.interval_pos
  unfold nextPeriod
  split
  · exact ⟨later, rfl⟩
  · exact ⟨later, rfl⟩
  · exact ⟨later, rfl⟩
  · rename_i weekly
    rw [weekly] at calendar
    exact absurd calendar (by decide)
  · rename_i yearly monthly daily _
    simp only [List.mem_cons, List.not_mem_nil, or_false] at calendar
    rcases calendar with kind | kind | kind
    · exact (yearly kind).elim
    · exact (monthly kind).elim
    · exact (daily kind).elim

theorem reaches_calendar {s : Series} (calendar : s.frequency ∈ [.yearly, .monthly, .daily])
    {period : Nat} (reached : s.Reaches period) :
    ∃ steps, period = s.firstPeriod + steps * s.interval := by
  refine steps_of_reaches (fun passedOver period next way => ?_) reached
  obtain ⟨_, same⟩ := nextPeriod_calendar calendar passedOver period
  cases way.symm.trans same
  exact ⟨1, by rw [Nat.one_mul]⟩

/-- When all periods run, every one that whole intervals come to is reached. -/
theorem reaches_of_runs {s : Series} (calendar : s.frequency ∈ [.yearly, .monthly, .daily])
    (runs : ∀ period, s.Reaches period → period < horizon s.frequency → s.Runs period) (steps : Nat)
    (inside : s.firstPeriod + steps * s.interval < horizon s.frequency) :
    s.Reaches (s.firstPeriod + steps * s.interval) := by
  induction steps with
  | zero =>
    rw [Nat.zero_mul, Nat.add_zero]
    exact .first
  | succ steps ih =>
    rw [Nat.succ_mul, ← Nat.add_assoc] at inside ⊢
    have before : s.firstPeriod + steps * s.interval < horizon s.frequency := by omega
    have reached := ih before
    obtain ⟨table, known, _⟩ := runs _ reached before
    obtain ⟨_, way⟩ := nextPeriod_calendar calendar (s.passesOver table _) _
    exact .next reached before known way

theorem complete_of_daily {s : Series} (sound : s.IsSound) (daily : s.frequency = .daily) :
    (s.search s.dayTimes s.firstPeriod).ending = none := by
  refine ending_search_of_runs (fun period reached inside => ?_) .first
  refine runs_of_known (by rw [daily]; decide) reached inside
    (yearTable_ok sound (by rw [daily]; decide) (by rw [daily]; decide) (firstDay_pos reached)) ?_
  intro passedOver
  obtain ⟨_, way⟩ := nextPeriod_calendar (by rw [daily]; decide) passedOver period
  exact ⟨_, way⟩

theorem complete_of_monthly {s : Series} (sound : s.IsSound) (monthly : s.frequency = .monthly) :
    (s.search s.dayTimes s.firstPeriod).ending = none := by
  refine ending_search_of_runs (fun period reached inside => ?_) .first
  have firstDay : s.firstDay period ∈ s.days period := by
    have long : 28 ≤ s.length period := by
      rw [length, monthly]
      exact Date.le_monthLength (Nat.le_add_left ..) (Nat.succ_le_of_lt (Nat.mod_lt _ (by decide)))
    rw [days, List.mem_range'_1]
    omega
  have within := (mem_days (firstPeriod_le reached) inside firstDay).2 (by rw [monthly]; decide)
  refine runs_of_known (by rw [monthly]; decide) reached inside
    (yearTable_ok_of_monthly sound monthly (firstDay_pos reached) within) ?_
  intro passedOver
  obtain ⟨_, way⟩ := nextPeriod_calendar (by rw [monthly]; decide) passedOver period
  exact ⟨_, way⟩

/-- A yearly series that begins in year one and asks for the last week of the year
before, unless it names the last week as such. -/
def AsksYearZero (s : Series) : Prop :=
  s.frequency = .yearly ∧ s.start.date.year = 1 ∧ s.weekNumbers ≠ [] ∧ -1 ∉ s.weekNumbers ∧
    s.weekStart ∈ [.tuesday, .wednesday, .thursday]

/-- A yearly series with an ordinal that counts, from the first of one of its
months, to a day that is so far behind the year that its weekday is not known. -/
def OverrunsYear (s : Series) : Prop :=
  s.frequency = .yearly ∧ ∃ steps, s.start.date.year + steps * s.interval ≤ Date.lastYear ∧
    ∃ month ∈ s.months, ∃ entry ∈ s.ordinals,
      (knownDays (s.start.date.year + steps * s.interval) : Int) ≤
        Date.daysBeforeMonth (s.start.date.year + steps * s.interval) month + (entry.1 - 1) * 7

theorem complete_iff_of_yearly {s : Series} (sound : s.IsSound) (yearly : s.frequency = .yearly) :
    (s.search s.dayTimes s.firstPeriod).ending = none ↔ ¬s.AsksYearZero ∧ ¬s.OverrunsYear := by
  have calendar : s.frequency ∈ [.yearly, .monthly, .daily] := by
    rw [yearly]
    decide
  have start := (Date.isValid_iff.mp s.start.date_isValid).1
  have first : s.firstPeriod = s.start.date.year := by
    unfold firstPeriod
    rw [yearly]
  have last (year : Nat) : year < horizon s.frequency ↔ year ≤ Date.lastYear := by
    rw [yearly]
    exact Nat.lt_succ_iff
  rw [ending_search_iff]
  constructor
  · intro runs
    have known (steps : Nat) (inside : s.start.date.year + steps * s.interval ≤ Date.lastYear) :
        ∃ table, s.yearTable (s.start.date.year + steps * s.interval) = .ok table := by
      rw [← first, ← last] at inside
      obtain ⟨table, known, _⟩ := runs _ (reaches_of_runs calendar runs steps inside) inside
      rw [first] at known
      exact ⟨table, known⟩
    constructor
    · rintro ⟨_, yearOne, numbered, notLast, day⟩
      have table := known 0 (by rw [yearOne, Nat.zero_mul]; decide)
      rw [yearTable_ok_of_yearly sound yearly (by omega)] at table
      have later := table.1 numbered notLast day
      omega
    · rintro ⟨_, steps, inside, month, among, entry, member, beyond⟩
      have table := known steps inside
      rw [yearTable_ok_of_yearly sound yearly (by omega)] at table
      have bound := table.2 month among entry member
      omega
  · rintro ⟨notZero, notBeyond⟩ period reached inside
    obtain ⟨steps, rfl⟩ := reaches_calendar calendar reached
    rw [last, first] at inside
    have known : ∃ table, s.yearTable (s.firstPeriod + steps * s.interval) = .ok table := by
      rw [first, yearTable_ok_of_yearly sound yearly (by omega)]
      refine ⟨fun numbered notLast day => ?_, fun month among entry member => ?_⟩
      · have yearOne : s.start.date.year ≠ 1 := fun yearOne =>
          notZero ⟨yearly, yearOne, numbered, notLast, day⟩
        omega
      · by_contra beyond
        exact notBeyond ⟨yearly, steps, inside, month, among, entry, member, Int.not_lt.mp beyond⟩
    refine runs_of_known (by rw [yearly]; decide) reached (by rw [last, first]; exact inside) known ?_
    intro passedOver
    obtain ⟨_, way⟩ := nextPeriod_calendar calendar passedOver _
    exact ⟨_, way⟩

end Recurrence.Series
