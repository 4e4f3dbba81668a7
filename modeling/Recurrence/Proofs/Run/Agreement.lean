import Mathlib.Data.List.TakeWhile
import Recurrence.Proofs.Run.Mapping

namespace Recurrence

/-- Whether two sequences of instants are the same up to instants that do not show. -/
def AgreeWhile (shows : Int → Prop) (left right : List Int) : Prop :=
  ∃ common rest other, left = common ++ rest ∧ right = common ++ other ∧
    ∀ i ∈ rest ++ other, ¬shows i

namespace AgreeWhile

variable {shows : Int → Prop} {left right : List Int}

theorem refl (shows : Int → Prop) (left : List Int) : AgreeWhile shows left left :=
  ⟨left, [], [], by simp, by simp, by simp⟩

theorem filter (agree : AgreeWhile shows left right) (p : Int → Bool) :
    AgreeWhile shows (left.filter p) (right.filter p) := by
  obtain ⟨common, rest, other, rfl, rfl, hidden⟩ := agree
  refine ⟨common.filter p, rest.filter p, other.filter p, List.filter_append .., List.filter_append ..,
    fun i member => ?_⟩
  rw [← List.filter_append] at member
  exact hidden i (List.mem_filter.mp member).1

theorem takeWhile_append_of_stop {p : Int → Bool} {front : List Int}
    (stops : ¬∀ i ∈ front, p i = true) (rest : List Int) :
    (front ++ rest).takeWhile p = front.takeWhile p := by
  rw [List.takeWhile_append, if_neg]
  intro whole
  refine stops (List.takeWhile_eq_self_iff.mp ?_)
  exact (List.takeWhile_prefix p).eq_of_length whole

theorem takeWhile (agree : AgreeWhile shows left right) (p : Int → Bool) :
    AgreeWhile shows (left.takeWhile p) (right.takeWhile p) := by
  obtain ⟨common, rest, other, rfl, rfl, hidden⟩ := agree
  by_cases all : ∀ i ∈ common, p i = true
  · rw [List.takeWhile_append_of_pos all, List.takeWhile_append_of_pos all]
    refine ⟨common, _, _, rfl, rfl, fun i member => hidden i ?_⟩
    rw [List.mem_append] at member ⊢
    exact member.imp (fun among => (List.takeWhile_sublist p).subset among)
      fun among => (List.takeWhile_sublist p).subset among
  · rw [takeWhile_append_of_stop all, takeWhile_append_of_stop all]
    exact refl shows _

theorem take (agree : AgreeWhile shows left right) (n : Nat) :
    AgreeWhile shows (left.take n) (right.take n) := by
  obtain ⟨common, rest, other, rfl, rfl, hidden⟩ := agree
  refine ⟨common.take n, rest.take (n - common.length), other.take (n - common.length),
    List.take_append, List.take_append, fun i member => hidden i ?_⟩
  rw [List.mem_append] at member ⊢
  exact member.imp List.mem_of_mem_take List.mem_of_mem_take

end AgreeWhile

end Recurrence
