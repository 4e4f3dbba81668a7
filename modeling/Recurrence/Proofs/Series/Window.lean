import Recurrence.Proofs.Run.Ordered
import Recurrence.Proofs.Series.Ascending
import Recurrence.Schedule.Occurrences

namespace Recurrence

/-- Whether an instant comes before another, or is the same where that is included. -/
def precedes (inclusive : Bool) (i j : Int) : Bool := if inclusive then i ≤ j else i < j

theorem Timestamp.isPast_eq (t bound : Timestamp) (inclusive : Bool) :
    t.isPast bound inclusive = precedes inclusive bound.instant t.instant := by
  unfold isPast precedes
  refine Bool.eq_iff_iff.mpr ?_
  cases inclusive with
  | false => simp
  | true =>
    simp only [Bool.true_and, Bool.or_eq_true, decide_eq_true_eq, beq_iff_eq, if_true]
    omega

/-- Whether a moment is after a bound, where there is one. -/
def Timestamp.isAfter (t : Timestamp) (bound : Option Timestamp) (inclusive : Bool) : Bool :=
  bound.all fun b => precedes inclusive b.instant t.instant

/-- Whether a moment is before a bound, where there is one. -/
def Timestamp.isBefore (t : Timestamp) (bound : Option Timestamp) (inclusive : Bool) : Bool :=
  bound.all fun b => precedes inclusive t.instant b.instant

namespace Series

variable {s : Series}

/-- What precedes a bound in a series is closed under what comes before. -/
theorem precedes_closed (p : Timestamp → Bool) (inclusive : Bool) (bound : Int) :
    (s.occurrences.items.filter p).Pairwise fun t u =>
      precedes inclusive u.instant bound = true → precedes inclusive t.instant bound = true := by
  have sorted := s.occurrences_ascending.sublist
    (List.Sublist.map Timestamp.instant (List.filter_sublist (p := p)))
  rw [List.pairwise_map] at sorted
  refine sorted.imp fun less => ?_
  cases inclusive with
  | false =>
    simp only [precedes, Bool.false_eq_true, if_false, decide_eq_true_eq]
    omega
  | true =>
    simp only [precedes, if_true, decide_eq_true_eq]
    omega

theorem items_window (s : Series) (after before : Option Timestamp) (inclusive : Bool) :
    (s.window after before inclusive).items = s.occurrences.items.filter fun t =>
      t.isAfter after inclusive && t.isBefore before inclusive := by
  have late : (s.window after none inclusive).items =
      s.occurrences.items.filter fun t => t.isAfter after inclusive := by
    cases after with
    | none => exact (List.filter_true _).symm
    | some a =>
      refine (Run.items_filter ..).trans ?_
      simp only [Timestamp.isPast_eq]
      rfl
  cases before with
  | none =>
    rw [late]
    simp [Timestamp.isBefore]
  | some b =>
    have cut : (s.window after (some b) inclusive).items =
        (s.window after none inclusive).items.takeWhile fun t => b.isPast t inclusive :=
      Run.items_takeWhile ..
    simp only [Timestamp.isPast_eq] at cut
    rw [cut, late, takeWhile_eq_filter (precedes_closed ..), List.filter_filter]
    exact List.filter_congr fun _ _ => Bool.and_comm ..

/-- A window comes to the error of a series only when no occurrence lies beyond it. -/
theorem ending_window_eq (s : Series) (after before : Option Timestamp) (inclusive : Bool) :
    (s.window after before inclusive).ending =
      if (s.occurrences.items.filter (·.isAfter after inclusive)).all (·.isBefore before inclusive) then
        s.occurrences.ending
      else none := by
  unfold window
  cases after <;> cases before <;>
    simp [Run.ending_takeWhile, Timestamp.isPast_eq, Timestamp.isAfter, Timestamp.isBefore]

theorem ending_window (complete : s.occurrences.ending = none) (after before : Option Timestamp)
    (inclusive : Bool) : (s.window after before inclusive).ending = none := by
  rw [ending_window_eq, complete, ite_self]

end Series

end Recurrence
