import Recurrence.Proofs.Run.Ordered
import Recurrence.Proofs.Series.Choices

namespace Recurrence.Series

variable {s : Series} {t : Timestamp}

/-- Nothing that comes before a moment is after the end when the moment is not. -/
theorem items_unlimited (s : Series) :
    s.unlimited.items = s.found.filter fun t => s.isAfterStart t && s.isBeforeEnd t := by
  have closed : s.found.Pairwise fun t u => s.isBeforeEnd u = true → s.isBeforeEnd t = true := by
    have ascending := s.found_ascending
    rw [List.pairwise_map] at ascending
    refine ascending.imp fun less => ?_
    unfold isBeforeEnd
    split
    · exact fun _ => rfl
    · simp only [decide_eq_true_eq]
      omega
  rw [unlimited, Run.items_filter, Run.items_takeWhile]
  change (s.found.takeWhile s.isBeforeEnd).filter s.isAfterStart = _
  rw [takeWhile_eq_filter closed, List.filter_filter]

theorem isBeforeEnd_iff :
    s.isBeforeEnd t = true ↔ ∀ last, s.ends = some last → t.instant ≤ last.instant := by
  unfold isBeforeEnd
  split
  · rename_i missing
    rw [missing]
    exact iff_of_true rfl fun _ same => nomatch same
  · rename_i last given
    rw [given, decide_eq_true_eq]
    exact ⟨fun le _ same => Option.some.inj same ▸ le, fun le => le last rfl⟩

/-- A moment that the search comes to is an occurrence when it lies between the start and
the end, unless the count is used up before. -/
theorem mem_unlimited (whole : s.start.micros = 0) :
    t ∈ s.unlimited.items ↔ t ∈ s.found ∧ s.start.instant ≤ t.instant ∧
      ∀ last, s.ends = some last → t.instant ≤ last.instant := by
  rw [items_unlimited, List.mem_filter, Bool.and_eq_true, isBeforeEnd_iff]
  refine and_congr_right fun member => and_congr_left fun _ => ?_
  rw [← isAfterStart_instant whole member, decide_eq_true_eq]

theorem length_occurrences {n : Nat} (counted : s.count = some n) : s.occurrences.items.length ≤ n := by
  unfold occurrences
  rw [counted]
  dsimp only
  rw [Run.items_cut]
  exact List.length_take_le ..

/-- Without set positions a complete search finds just what comes from the days and the
times of its periods. -/
theorem mem_found_iff (complete : (s.search s.dayTimes s.firstPeriod).ending = none)
    (unplaced : s.setPositions = []) : t ∈ s.found ↔ ∃ period table, s.ComesFrom period table t :=
  ⟨comesFrom_of_mem_search .first, fun ⟨_, _, origin⟩ => mem_found_of_comesFrom complete unplaced origin⟩

end Recurrence.Series
