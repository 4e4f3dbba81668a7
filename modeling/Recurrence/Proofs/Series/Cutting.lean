import Recurrence.Proofs.Series.Alike
import Recurrence.Proofs.Series.Members

namespace Recurrence.Series

/-- The series with a count and an end in place of its own. -/
def cutAt (s : Series) (count : Option Nat) (ends : Option Timestamp) : Series :=
  { s with count := count, ends := ends }

variable {s : Series}

/-- Neither a count nor an end changes what is searched for. -/
theorem alike_cutAt (s : Series) (count : Option Nat) (ends : Option Timestamp) :
    s.Alike (s.cutAt count ends) where
  frequency := rfl
  interval := rfl
  weekStart := rfl
  start := rfl
  setPositions := .refl _
  months := .refl _
  monthDays := .refl _
  yearDays := .refl _
  weekNumbers := .refl _
  weekdays := .refl _
  ordinals := .refl _
  hours := .refl _
  minutes := .refl _
  seconds := .refl _

/-- A count stops a series that has none behind so many occurrences. -/
theorem occurrences_counted (uncounted : s.count = none) (n : Nat) :
    (s.cutAt (some n) s.ends).occurrences = s.occurrences.cut n := by
  have same : (s.cutAt (some n) s.ends).unlimited = s.unlimited :=
    ((s.alike_cutAt (some n) s.ends).unlimited_eq rfl).symm
  have own : s.occurrences = s.unlimited := by
    unfold occurrences
    rw [uncounted]
  rw [own, ← same]
  rfl

section Ends

variable (uncounted : s.count = none) (endless : s.ends = none)

include uncounted endless in
theorem items_open : s.occurrences.items = s.found.filter s.isAfterStart := by
  have before : s.isBeforeEnd = fun _ => true := by
    unfold isBeforeEnd
    rw [endless]
  unfold occurrences
  rw [uncounted]
  dsimp only
  rw [items_unlimited, before]
  simp only [Bool.and_true]

include uncounted endless in
/-- A series that has neither a count nor an end goes through the whole search. -/
theorem search_complete_of_open (complete : s.occurrences.ending = none) :
    (s.search s.dayTimes s.firstPeriod).ending = none := by
  refine (ending_occurrences s).mp complete ⟨fun t _ => ?_, fun n limited => ?_⟩
  · unfold isBeforeEnd
    rw [endless]
  · rw [uncounted] at limited
    cases limited

include uncounted endless in
/-- An end leaves those occurrences that are not after it. -/
theorem items_ended (last : Timestamp) :
    (s.cutAt none (some last)).occurrences.items =
      s.occurrences.items.filter fun t => decide (t.instant ≤ last.instant) := by
  have found : (s.cutAt none (some last)).found = s.found := (s.alike_cutAt none (some last)).found_eq.symm
  rw [items_open uncounted endless, List.filter_filter]
  change (s.cutAt none (some last)).unlimited.items = _
  rw [items_unlimited, found]
  refine List.filter_congr fun t _ => ?_
  exact Bool.and_comm _ _

include uncounted endless in
theorem ending_ended (complete : s.occurrences.ending = none) (last : Timestamp) :
    (s.cutAt none (some last)).occurrences.ending = none := by
  have alike := s.alike_cutAt none (some last)
  refine (ending_occurrences _).mpr fun _ => ?_
  rw [← alike.search_eq, ← alike.firstPeriod_eq]
  exact search_complete_of_open uncounted endless complete

end Ends

end Recurrence.Series
