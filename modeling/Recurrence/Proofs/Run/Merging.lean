import Mathlib.Data.List.Perm.Basic
import Recurrence.Run

namespace Recurrence.Run

variable {ε α : Type}

/-- Two searches without errors are merged without one, and nothing is lost, added
or repeated. -/
theorem merge_complete {before : α → α → Bool} {run other : Run ε α}
    (complete : run.ending = none) (otherComplete : other.ending = none) :
    (merge before run other).ending = none ∧
      (merge before run other).items.Perm (run.items ++ other.items) := by
  fun_induction merge before run other with
  | case1 error other => cases complete
  | case2 run error => cases otherComplete
  | case3 other => exact ⟨otherComplete, List.Perm.refl _⟩
  | case4 run => exact ⟨complete, by rw [items, List.append_nil]⟩
  | case5 a resta b restb first ih =>
    obtain ⟨ending, perm⟩ := ih complete otherComplete
    exact ⟨ending, perm.cons a⟩
  | case6 a resta b restb second ih =>
    -- the searches change places, which the items do not show
    obtain ⟨ending, perm⟩ := ih otherComplete complete
    have taken : (next b fun _ => merge before (restb ()) (next a resta)).items.Perm
        ((next b restb).items ++ (next a resta).items) := perm.cons b
    exact ⟨ending, taken.trans List.perm_append_comm⟩

theorem le_of_mem_merge {before : α → α → Bool} {run other : Run ε α} {rank : α → Int} {least : Int}
    (complete : run.ending = none) (otherComplete : other.ending = none)
    (le : ∀ n ∈ run.items.map rank, least ≤ n) (otherLe : ∀ n ∈ other.items.map rank, least ≤ n) :
    ∀ n ∈ (merge before run other).items.map rank, least ≤ n := by
  intro n member
  rw [((merge_complete complete otherComplete).2.map rank).mem_iff, List.map_append,
    List.mem_append] at member
  exact member.elim (le n) (otherLe n)

/-- Searches in the order of a rank are merged in that order. -/
theorem merge_sorted (rank : α → Int) {run other : Run ε α} (complete : run.ending = none)
    (otherComplete : other.ending = none) (sorted : (run.items.map rank).Pairwise (· ≤ ·))
    (otherSorted : (other.items.map rank).Pairwise (· ≤ ·)) :
    ((merge (fun a b => decide (rank a < rank b)) run other).items.map rank).Pairwise (· ≤ ·) := by
  fun_induction merge (fun a b => decide (rank a < rank b)) run other with
  | case1 error other => cases complete
  | case2 run error => cases otherComplete
  | case3 other => exact otherSorted
  | case4 run => exact sorted
  | case5 a resta b restb first ih =>
    have le := Int.le_of_lt (of_decide_eq_true first)
    obtain ⟨least, onward⟩ := List.pairwise_cons.mp sorted
    obtain ⟨otherLeast, _⟩ := List.pairwise_cons.mp otherSorted
    refine List.pairwise_cons.mpr ⟨le_of_mem_merge complete otherComplete least ?_,
      ih complete otherComplete onward otherSorted⟩
    exact List.forall_mem_cons.mpr ⟨le, fun n later => Int.le_trans le (otherLeast n later)⟩
  | case6 a resta b restb second ih =>
    have le := Int.not_lt.mp fun less => second (decide_eq_true less)
    obtain ⟨least, _⟩ := List.pairwise_cons.mp sorted
    obtain ⟨otherLeast, onward⟩ := List.pairwise_cons.mp otherSorted
    refine List.pairwise_cons.mpr ⟨le_of_mem_merge otherComplete complete otherLeast ?_,
      ih otherComplete complete onward sorted⟩
    exact List.forall_mem_cons.mpr ⟨le, fun n later => Int.le_trans le (least n later)⟩

end Recurrence.Run
