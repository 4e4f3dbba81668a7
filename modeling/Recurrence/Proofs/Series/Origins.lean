import Recurrence.Proofs.Series.Ascending

namespace Recurrence.Series

variable {s : Series} {t : Timestamp}

/-- Where a moment of the search comes from: a day that is kept in a period which is
reached, and one of the times of the period, on the clock of the series. -/
structure ComesFrom (s : Series) (period : Nat) (table : YearTable) (t : Timestamp) : Prop where
  reached : s.Reaches period
  inside : period < horizon s.frequency
  known : s.yearTable period = .ok table
  day : t.dayNumber ∈ s.kept table period
  time : t.secondOfDay ∈ s.times s.dayTimes period
  offset : t.offset = s.start.offset
  whole : t.micros = 0

theorem clock_of_moment {day time : Nat} (positive : 0 < day) (early : time < 86400)
    (given : s.moment day time = .ok t) : t.dayNumber = day ∧ t.secondOfDay = time := by
  have second := second_of_moment positive given
  unfold secondOf at second
  unfold Timestamp.dayNumber Timestamp.secondOfDay
  omega

/-- The moment at the day and the time that a timestamp shows is that timestamp. -/
theorem moment_clock (offset : t.offset = s.start.offset) (whole : t.micros = 0) :
    s.moment t.dayNumber t.secondOfDay = .ok t := by
  have seconds : (t.dayNumber - 1) * 86400 + t.secondOfDay = t.seconds := by
    unfold Timestamp.dayNumber Timestamp.secondOfDay
    omega
  have made := t.make?_seconds
  rw [whole, offset] at made
  unfold moment
  rw [seconds, made]
  rfl

theorem comesFrom_of_mem_candidates {period : Nat} {table : YearTable} (reached : s.Reaches period)
    (inside : period < horizon s.frequency) (known : s.yearTable period = .ok table)
    (member : t ∈ (s.candidates (s.times s.dayTimes period) (s.kept table period)).items) :
    s.ComesFrom period table t := by
  obtain ⟨front, isFront, each⟩ :=
    s.shows_candidates (s.times s.dayTimes period) (s.kept table period)
  obtain ⟨pick, among, given⟩ := Outcome.exists_of_mem_right each member
  obtain ⟨day, time⟩ := mem_picks (isFront.subset among)
  obtain ⟨sameDay, sameTime⟩ :=
    clock_of_moment (days_pos table reached inside _ day) (s.times_lt period _ time) given
  obtain ⟨offset, whole⟩ := shape_of_moment given
  rw [← sameDay] at day
  rw [← sameTime] at time
  exact ⟨reached, inside, known, day, time, offset, whole⟩

/-- Everything that the search finds comes from a day and a time of some period. -/
theorem comesFrom_of_mem_search {period : Nat} (reached : s.Reaches period)
    (member : t ∈ (s.search s.dayTimes period).items) : ∃ origin table, s.ComesFrom origin table t := by
  revert reached member
  refine search_induction (s := s) (motive := fun period run => s.Reaches period →
    t ∈ run.items → ∃ origin table, s.ComesFrom origin table t) ?_ ?_ ?_ ?_ period
  · exact fun _ _ member => nomatch member
  · exact fun _ _ _ member => nomatch member
  · intro period table fault inside known reached member
    rcases Run.mem_append member with here | later
    · exact ⟨period, table, comesFrom_of_mem_candidates reached inside known here⟩
    · cases later
  · intro period table next inside known way ih reached member
    rcases Run.mem_append member with here | later
    · exact ⟨period, table, comesFrom_of_mem_candidates reached inside known here⟩
    · exact ih (.next reached inside known way) later

section Complete

variable {day time : Nat} {times days : List Nat} {rest : Unit → Run Fault Timestamp}

theorem mem_momentsOfDay_of_rest (complete : (s.momentsOfDay day times rest).ending = none)
    (member : t ∈ (rest ()).items) : t ∈ (s.momentsOfDay day times rest).items := by
  induction times with
  | nil => exact member
  | cons time times ih =>
    rw [momentsOfDay, Run.ending_startWith] at complete
    obtain ⟨⟨u, given⟩, complete⟩ := complete
    rw [momentsOfDay, given]
    exact List.mem_cons_of_mem _ (ih complete)

theorem mem_momentsOfDay (complete : (s.momentsOfDay day times rest).ending = none)
    (among : time ∈ times) (given : s.moment day time = .ok t) :
    t ∈ (s.momentsOfDay day times rest).items := by
  induction times with
  | nil => cases among
  | cons other times ih =>
    rw [momentsOfDay, Run.ending_startWith] at complete
    obtain ⟨⟨u, first⟩, complete⟩ := complete
    rw [momentsOfDay, first]
    rcases List.mem_cons.mp among with rfl | later
    · cases first.symm.trans given
      exact List.mem_cons_self ..
    · exact List.mem_cons_of_mem _ (ih complete later)

theorem mem_moments (complete : (s.moments times days).ending = none) (day_mem : day ∈ days)
    (time_mem : time ∈ times) (given : s.moment day time = .ok t) :
    t ∈ (s.moments times days).items := by
  induction days with
  | nil => cases day_mem
  | cons other days ih =>
    rw [moments] at complete ⊢
    rcases List.mem_cons.mp day_mem with rfl | later
    · exact mem_momentsOfDay complete time_mem given
    · exact mem_momentsOfDay_of_rest complete (ih (ending_momentsOfDay.mp complete).2 later)

/-- From a period that is reached, a complete search finds nothing that it does not find
from the first one on. -/
theorem items_search_subset (complete : (s.search s.dayTimes s.firstPeriod).ending = none)
    {period : Nat} (reached : s.Reaches period) : (s.search s.dayTimes period).items ⊆ s.found := by
  induction reached with
  | first => exact List.Subset.refl _
  | @next period table next reached inside known way ih =>
    have onward := ending_search_of_reaches complete reached
    rw [search_inside inside known, Run.ending_append] at onward
    refine List.Subset.trans ?_ ih
    rw [search_inside inside known, way]
    split at onward
    · rename_i given
      rw [Run.items_append _ _ given]
      exact List.subset_append_right ..
    · cases onward

/-- Without set positions a complete search finds whatever comes from a day and a time of
some period. -/
theorem mem_found_of_comesFrom (complete : (s.search s.dayTimes s.firstPeriod).ending = none)
    (unplaced : s.setPositions = []) {period : Nat} {table : YearTable}
    (origin : s.ComesFrom period table t) : t ∈ s.found := by
  obtain ⟨reached, inside, known, day, time, offset, whole⟩ := origin
  refine items_search_subset complete reached ?_
  have onward := ending_search_of_reaches complete reached
  rw [search_inside inside known, Run.ending_append] at onward
  rw [search_inside inside known]
  split at onward
  · rename_i given
    have every : s.candidates (s.times s.dayTimes period) (s.kept table period) =
        s.moments (s.times s.dayTimes period) (s.kept table period) := by
      unfold candidates
      rw [unplaced, List.isEmpty_nil, Bool.true_or, if_pos rfl]
    rw [Run.items_append _ _ given]
    rw [every] at given ⊢
    exact List.mem_append_left _ (mem_moments given day time (moment_clock offset whole))
  · cases onward

end Complete

end Recurrence.Series
