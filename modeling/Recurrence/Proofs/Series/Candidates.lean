import Mathlib.Data.List.GetD
import Recurrence.Proofs.Outcome
import Recurrence.Proofs.Run.Ending
import Recurrence.Proofs.Run.Mapping
import Recurrence.Series.Period

namespace Recurrence.Series

/-- The days and the times of day that are given in a period, in order: all of
them, or those at the set positions. -/
def picks (s : Series) (times days : List Nat) : List (Nat × Nat) :=
  if s.setPositions.isEmpty || times.isEmpty then
    days.flatMap fun day => times.map fun time => (day, time)
  else
    (s.places (days.length * times.length)).map fun place =>
      (days.getD (place / times.length) 0, times.getD (place % times.length) 0)

theorem places_lt {s : Series} {size place : Nat} (member : place ∈ s.places size) :
    place < size := by
  unfold places at member
  rw [List.mem_eraseDups] at member
  have member := List.mem_mergeSort.mp member
  obtain ⟨position, _, meant⟩ := List.mem_filterMap.mp member
  dsimp only at meant
  generalize (if position < 0 then (size : Int) + position else position - 1) = nth at meant
  split at meant
  · cases meant
    omega
  · cases meant

/-- A place among the times of some days is one of a day and one of its times. -/
theorem place_bounds {s : Series} {days times place : Nat} (member : place ∈ s.places (days * times)) :
    place / times < days ∧ place % times < times := by
  have bound := places_lt member
  have positive : 0 < times :=
    Nat.pos_of_mul_pos_left (Nat.lt_of_le_of_lt (Nat.zero_le _) bound)
  exact ⟨Nat.div_lt_of_lt_mul (by rwa [Nat.mul_comm]), Nat.mod_lt _ positive⟩

theorem mem_picks {s : Series} {times days : List Nat} {pick : Nat × Nat}
    (member : pick ∈ s.picks times days) : pick.1 ∈ days ∧ pick.2 ∈ times := by
  unfold picks at member
  split at member
  · obtain ⟨day, among, member⟩ := List.mem_flatMap.mp member
    obtain ⟨time, within, rfl⟩ := List.mem_map.mp member
    exact ⟨among, within⟩
  · obtain ⟨place, among, rfl⟩ := List.mem_map.mp member
    obtain ⟨day, time⟩ := place_bounds among
    rw [List.getD_eq_getElem _ _ day, List.getD_eq_getElem _ _ time]
    exact ⟨List.getElem_mem .., List.getElem_mem ..⟩

theorem ending_momentsOfDay {s : Series} {day : Nat} {times : List Nat}
    {rest : Unit → Run Fault Timestamp} :
    (s.momentsOfDay day times rest).ending = none ↔
      (∀ time ∈ times, ∃ t, s.moment day time = .ok t) ∧ (rest ()).ending = none := by
  induction times with
  | nil =>
    rw [momentsOfDay]
    exact ⟨fun complete => ⟨fun _ member => (nomatch member), complete⟩, fun both => both.2⟩
  | cons time times ih =>
    rw [momentsOfDay, Run.ending_startWith, ih, List.forall_mem_cons, and_assoc]

theorem ending_moments {s : Series} {times days : List Nat} :
    (s.moments times days).ending = none ↔
      ∀ day ∈ days, ∀ time ∈ times, ∃ t, s.moment day time = .ok t := by
  induction days with
  | nil => exact ⟨fun _ _ member => (nomatch member), fun _ => rfl⟩
  | cons day days ih => rw [moments, ending_momentsOfDay, ih, List.forall_mem_cons]

/-- The moments of a period are all found exactly when each of them is a moment. -/
theorem ending_candidates {s : Series} {times days : List Nat} :
    (s.candidates times days).ending = none ↔
      ∀ pick ∈ s.picks times days, ∃ t, s.moment pick.1 pick.2 = .ok t := by
  unfold candidates picks
  split
  · rw [ending_moments]
    simp only [List.forall_mem_flatMap, List.forall_mem_map]
  · rw [List.forall_mem_map, ← Outcome.mapM_ok_iff]
    unfold momentsAt
    dsimp only
    split
    · rename_i moments found
      exact iff_of_true (Run.ending_ofList _) ⟨_, found⟩
    · rename_i fault lost
      refine iff_of_false (fun complete => nomatch complete) fun ⟨moments, found⟩ => ?_
      cases found.symm.trans lost

/-- Whether the given moments are those of the first of some picks. -/
def Shows (s : Series) (picks : List (Nat × Nat)) (moments : List Timestamp) : Prop :=
  ∃ front, front <+: picks ∧
    List.Forall₂ (fun pick t => s.moment pick.1 pick.2 = .ok t) front moments

theorem shows_momentsOfDay {s : Series} {day : Nat} {times : List Nat} {later : List (Nat × Nat)}
    {rest : Unit → Run Fault Timestamp} (onward : s.Shows later (rest ()).items) :
    s.Shows (times.map (fun time => (day, time)) ++ later) (s.momentsOfDay day times rest).items := by
  induction times with
  | nil => exact onward
  | cons time times ih =>
    rw [momentsOfDay]
    cases given : s.moment day time with
    | error fault => exact ⟨[], List.nil_prefix, .nil⟩
    | ok t =>
      obtain ⟨front, isFront, each⟩ := ih
      exact ⟨(day, time) :: front, List.cons_prefix_cons.mpr ⟨rfl, isFront⟩, .cons given each⟩

/-- The candidates of a period are the moments of its picks, up to the first pick
that is no moment. -/
theorem shows_candidates (s : Series) (times days : List Nat) :
    s.Shows (s.picks times days) (s.candidates times days).items := by
  unfold candidates picks
  split
  · induction days with
    | nil => exact ⟨[], List.nil_prefix, .nil⟩
    | cons day days ih =>
      rw [moments, List.flatMap_cons]
      exact shows_momentsOfDay ih
  · unfold momentsAt
    dsimp only
    split
    · rename_i moments found
      rw [Run.items_ofList]
      exact ⟨_, List.prefix_refl _,
        List.forall₂_map_left_iff.mpr (Outcome.mapM_eq_ok_iff.mp found)⟩
    · exact ⟨[], List.nil_prefix, .nil⟩

/-- What is given in a period are moments on the clock of the series. -/
theorem mem_candidates {s : Series} {times days : List Nat} {t : Timestamp}
    (member : t ∈ (s.candidates times days).items) : ∃ day time, s.moment day time = .ok t := by
  obtain ⟨_, _, each⟩ := s.shows_candidates times days
  obtain ⟨pick, _, given⟩ := Outcome.exists_of_mem_right each member
  exact ⟨pick.1, pick.2, given⟩

end Recurrence.Series
