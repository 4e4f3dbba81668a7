import Recurrence.Proofs.Series.Search
import Recurrence.Proofs.Series.YearTable

namespace Recurrence.Series

/-- A period runs when its year can be looked up, all days picked in it are within
the calendar, and there is a way on. -/
theorem runs_iff {s : Series} {period : Nat} (reached : s.Reaches period)
    (inside : period < horizon s.frequency) :
    s.Runs period ↔ ∃ table, s.yearTable period = .ok table ∧
      (∀ pick ∈ s.picks (s.times s.dayTimes period) (s.kept table period),
        pick.1 ≤ Date.lastNumber) ∧
      ∃ next, s.nextPeriod (s.passesOver table period) period = .ok next := by
  refine exists_congr fun table => and_congr_right fun _ => and_congr_left fun _ => ?_
  rw [ending_candidates]
  refine forall₂_congr fun pick member => ?_
  obtain ⟨day, time⟩ := mem_picks member
  obtain ⟨positive, _⟩ := mem_days (firstPeriod_le reached) inside (List.mem_filter.mp day).1
  exact moment_ok_iff positive (s.times_lt period _ time)

theorem firstDay_pos {s : Series} {period : Nat} (reached : s.Reaches period) :
    0 < s.firstDay period := by
  have later := firstPeriod_le reached
  have number := s.start.dayNumber_bounds.1
  unfold firstPeriod at later
  unfold firstDay
  cases kind : s.frequency with
  | yearly => exact Nat.succ_pos _
  | monthly => exact Nat.succ_pos _
  | _ =>
    simp only [kind, unitsPerDay] at later ⊢
    omega

/-- Except for weeks, all days of the periods are within the calendar. -/
theorem runs_of_known {s : Series} (notWeekly : s.frequency ≠ .weekly) {period : Nat}
    (reached : s.Reaches period) (inside : period < horizon s.frequency)
    (known : ∃ table, s.yearTable period = .ok table)
    (onward : ∀ passedOver, ∃ next, s.nextPeriod passedOver period = .ok next) :
    s.Runs period := by
  obtain ⟨table, known⟩ := known
  rw [runs_iff reached inside]
  refine ⟨table, known, fun pick member => ?_, onward _⟩
  have day := (List.mem_filter.mp (mem_picks member).1).1
  exact (mem_days (firstPeriod_le reached) inside day).2 notWeekly

theorem firstPeriod_inside (s : Series) : s.firstPeriod < horizon s.frequency := by
  have year := Date.isValid_iff.mp s.start.date_isValid
  have last : Date.lastYear = 9999 := rfl
  have number := s.start.dayNumber_bounds.2
  have time : s.start.secondOfDay < 86400 := Nat.mod_lt _ (by decide)
  unfold firstPeriod horizon Timestamp.hour
  cases s.frequency with
  | yearly =>
    dsimp only
    omega
  | monthly =>
    dsimp only
    omega
  | _ =>
    simp only [unitsPerDay]
    omega

/-- Where every way on is by whole intervals, so is what is reached. -/
theorem steps_of_reaches {s : Series} (onward : ∀ passedOver period next,
      s.nextPeriod passedOver period = .ok next →
        ∃ steps, next.1 = period + steps * s.interval) {period : Nat} (reached : s.Reaches period) :
    ∃ steps, period = s.firstPeriod + steps * s.interval := by
  induction reached with
  | first => exact ⟨0, by rw [Nat.zero_mul, Nat.add_zero]⟩
  | next _ _ _ way ih =>
    obtain ⟨before, rfl⟩ := ih
    obtain ⟨more, same⟩ := onward _ _ _ way
    exact ⟨before + more, by rw [same, Nat.add_mul, Nat.add_assoc]⟩

end Recurrence.Series
