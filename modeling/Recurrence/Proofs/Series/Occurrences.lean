import Mathlib.Data.List.TakeWhile
import Recurrence.Proofs.Series.Search

namespace Recurrence.Series

/-- The moments that the search comes to, in all periods up to the last or up to
the one that it fails in. -/
def found (s : Series) : List Timestamp := (s.search s.dayTimes s.firstPeriod).items

/-- Whether neither the end nor the count of a series is passed by what the search
comes to, so that it goes on to the very end. -/
def StaysOpen (s : Series) : Prop :=
  (∀ t ∈ s.found, s.isBeforeEnd t = true) ∧
    ∀ n, s.count = some n → (s.found.filter s.isAfterStart).length ≤ n

theorem unlimited_of_before {s : Series} (before : ∀ t ∈ s.found, s.isBeforeEnd t = true) :
    s.unlimited.items = s.found.filter s.isAfterStart := by
  rw [unlimited, Run.items_filter, Run.items_takeWhile]
  change (s.found.takeWhile s.isBeforeEnd).filter s.isAfterStart = _
  rw [List.takeWhile_eq_self_iff.mpr before]

theorem ending_unlimited (s : Series) :
    s.unlimited.ending = none ↔
      ((∀ t ∈ s.found, s.isBeforeEnd t = true) →
        (s.search s.dayTimes s.firstPeriod).ending = none) := by
  rw [unlimited, Run.ending_filter, Run.ending_takeWhile, ← List.all_eq_true]
  change (if s.found.all s.isBeforeEnd = true then _ else none) = none ↔ _
  split
  · rename_i before
    exact ⟨fun complete _ => complete, fun complete => complete before⟩
  · rename_i after
    exact iff_of_true rfl fun before => absurd before after

/-- An error of the search shows in the occurrences only when neither the end nor
the count of the series is passed before. -/
theorem ending_occurrences (s : Series) :
    s.occurrences.ending = none ↔
      (s.StaysOpen → (s.search s.dayTimes s.firstPeriod).ending = none) := by
  unfold occurrences StaysOpen
  cases s.count with
  | none =>
    dsimp only
    rw [ending_unlimited]
    exact ⟨fun complete stays => complete stays.1,
      fun complete before => complete ⟨before, fun n limited => nomatch limited⟩⟩
  | some n =>
    dsimp only
    rw [Run.ending_cut]
    split
    · rename_i few
      rw [ending_unlimited]
      refine ⟨fun complete stays => complete stays.1, fun complete before => ?_⟩
      rw [unlimited_of_before before] at few
      refine complete ⟨before, fun m limited => ?_⟩
      cases limited
      exact few
    · rename_i many
      refine iff_of_true rfl fun stays => ?_
      rw [unlimited_of_before stays.1] at many
      exact absurd (stays.2 n rfl) many

/-- The first moment of the first period comes first of all, when it is not cut off. -/
theorem occurrences_first {s : Series} {table : YearTable} {t : Timestamp}
    {rest : Unit → Run Fault Timestamp} (inside : s.firstPeriod < horizon s.frequency)
    (known : s.yearTable s.firstPeriod = .ok table)
    (given : s.candidates (s.times s.dayTimes s.firstPeriod) (s.kept table s.firstPeriod) =
      .next t rest) (uncounted : s.count = none) (before : s.isBeforeEnd t = true)
    (after : s.isAfterStart t = true) : ∃ more, s.occurrences = .next t more := by
  unfold occurrences unlimited
  rw [uncounted, search_inside inside known, given]
  simp only [Run.append, Run.takeWhile, before, if_true, Run.filter, after]
  exact ⟨_, rfl⟩

end Recurrence.Series
