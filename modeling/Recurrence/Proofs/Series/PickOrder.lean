import Mathlib.Data.List.Sort
import Recurrence.Proofs.Series.Range
import Recurrence.Proofs.Series.Search

namespace Recurrence.Series

/-- The second of a time of a day, counted from the beginning of day zero. -/
def secondOf (pick : Nat × Nat) : Nat := pick.1 * 86400 + pick.2

/-- Numbers of two digits grow when both of their digits do. -/
theorem digits_ascending {size : Nat} {high low : List Nat} (ascendingHigh : high.Pairwise (· < ·))
    (ascendingLow : low.Pairwise (· < ·)) (bound : ∀ n ∈ low, n < size) :
    (high.flatMap fun h => low.map fun l => h * size + l).Pairwise (· < ·) := by
  rw [List.pairwise_flatMap]
  constructor
  · intro h _
    exact List.pairwise_map.mpr (ascendingLow.imp fun less => Nat.add_lt_add_left less _)
  · refine ascendingHigh.imp fun {first second} less x inFirst y inSecond => ?_
    obtain ⟨l, member, rfl⟩ := List.mem_map.mp inFirst
    obtain ⟨m, _, rfl⟩ := List.mem_map.mp inSecond
    calc first * size + l < first * size + size := Nat.add_lt_add_left (bound l member) _
      _ = (first + 1) * size := (Nat.succ_mul ..).symm
      _ ≤ second * size := Nat.mul_le_mul_right _ less
      _ ≤ second * size + m := Nat.le_add_right ..

theorem chosen_ascending (size : Nat) (wanted : Option (List Int)) (fallback : Nat) :
    (chosen size wanted fallback).Pairwise (· < ·) := by
  unfold chosen
  split
  · exact List.pairwise_singleton ..
  · exact List.pairwise_lt_range.filter _

theorem clockTimes_ascending {hours minutes seconds : List Nat} (hour : hours.Pairwise (· < ·))
    (minute : minutes.Pairwise (· < ·)) (second : seconds.Pairwise (· < ·))
    (minute_lt : ∀ n ∈ minutes, n < 60) (second_lt : ∀ n ∈ seconds, n < 60) :
    (clockTimes hours minutes seconds).Pairwise (· < ·) := by
  have digits : clockTimes hours minutes seconds =
      (hours.flatMap fun h => minutes.map fun m => h * 60 + m).flatMap fun m =>
        seconds.map fun s => m * 60 + s := by
    simp only [clockTimes, List.flatMap_assoc, List.flatMap_map]
  rw [digits]
  exact digits_ascending (digits_ascending hour minute minute_lt) second second_lt

/-- The times of a period grow. -/
theorem times_ascending (s : Series) (period : Nat) :
    (s.times s.dayTimes period).Pairwise (· < ·) := by
  have minutes : s.minuteChoice.Pairwise (· < ·) := chosen_ascending ..
  have seconds : s.secondChoice.Pairwise (· < ·) := chosen_ascending ..
  obtain ⟨_, minute, second⟩ := clock_lt s.frequency period
  unfold times
  split
  · exact clockTimes_ascending (chosen_ascending ..) minutes seconds s.minuteChoice_lt s.secondChoice_lt
  · split
    · exact List.Pairwise.nil
    · refine clockTimes_ascending (List.pairwise_singleton ..) ?_ ?_ ?_ ?_
      · split
        · exact List.pairwise_singleton ..
        · exact minutes
      · split
        · exact List.pairwise_singleton ..
        · exact seconds
      · split
        · exact fun n only => List.mem_singleton.mp only ▸ minute
        · exact s.minuteChoice_lt
      · split
        · exact fun n only => List.mem_singleton.mp only ▸ second
        · exact s.secondChoice_lt

theorem kept_ascending (s : Series) (table : YearTable) (period : Nat) :
    (s.kept table period).Pairwise (· < ·) :=
  (List.pairwise_lt_range' 1).filter _

theorem eraseDups_ascending {l : List Nat} (sorted : l.Pairwise (· ≤ ·)) :
    l.eraseDups.Pairwise (· < ·) := by
  induction same : l.length using Nat.strongRecOn generalizing l with
  | ind size ih =>
    cases l with
    | nil => exact List.Pairwise.nil
    | cons a l =>
      obtain ⟨least, sorted⟩ := List.pairwise_cons.mp sorted
      have shorter : (l.filter fun b => !b == a).length < size := by
        have := List.length_filter_le (fun b => !b == a) l
        rw [List.length_cons] at same
        omega
      rw [List.eraseDups_cons, List.pairwise_cons]
      refine ⟨fun b member => ?_, ih _ shorter (sorted.filter _) rfl⟩
      obtain ⟨among, other⟩ := List.mem_filter.mp (List.mem_eraseDups.mp member)
      have other : b ≠ a := by simpa using other
      exact Nat.lt_of_le_of_ne (least b among) other.symm

theorem places_ascending (s : Series) (size : Nat) : (s.places size).Pairwise (· < ·) := by
  unfold places
  exact eraseDups_ascending (List.pairwise_mergeSort' (· ≤ ·) _)

theorem getD_lt_getD {l : List Nat} (ascending : l.Pairwise (· < ·)) {i j : Nat} (less : i < j)
    (bound : j < l.length) : l.getD i 0 < l.getD j 0 := by
  rw [List.getD_eq_getElem _ _ bound, List.getD_eq_getElem _ _ (Nat.lt_trans less bound)]
  exact List.pairwise_iff_getElem.mp ascending i j _ bound less

/-- What is picked in a period grows, day by day and in each day. -/
theorem picks_ascending (s : Series) {times days : List Nat} (time : times.Pairwise (· < ·))
    (day : days.Pairwise (· < ·)) (bound : ∀ n ∈ times, n < 86400) :
    ((s.picks times days).map secondOf).Pairwise (· < ·) := by
  unfold picks
  split
  · simp only [List.map_flatMap, List.map_map, Function.comp_def, secondOf]
    exact digits_ascending day time bound
  · rw [List.map_map, List.pairwise_map]
    refine List.Pairwise.imp_of_mem (fun {first second} atFirst atSecond less => ?_)
      (s.places_ascending _)
    obtain ⟨_, firstBound⟩ := place_bounds atFirst
    obtain ⟨dayBound, timeBound⟩ := place_bounds atSecond
    have early : times.getD (first % times.length) 0 < 86400 := by
      rw [List.getD_eq_getElem _ _ firstBound]
      exact bound _ (List.getElem_mem ..)
    simp only [Function.comp_apply, secondOf]
    rcases Nat.lt_or_eq_of_le (Nat.div_le_div_right (c := times.length) (Nat.le_of_lt less)) with
      earlier | same
    · have := getD_lt_getD day earlier dayBound
      omega
    · have within : first % times.length < second % times.length := by
        have before := Nat.mod_add_div first times.length
        have after := Nat.mod_add_div second times.length
        rw [same] at before
        omega
      have := getD_lt_getD time within timeBound
      rw [same]
      omega

end Recurrence.Series
