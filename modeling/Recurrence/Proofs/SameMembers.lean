import Mathlib.Data.List.Sort
import Recurrence.Proofs.Outcome

namespace Recurrence

/-- Whether two lists have the same members, in whatever order and however often. -/
def SameMembers {α : Type} (items others : List α) : Prop := ∀ a, a ∈ items ↔ a ∈ others

namespace SameMembers

variable {α β : Type} {items others : List α}

theorem refl (items : List α) : SameMembers items items := fun _ => Iff.rfl

theorem symm (same : SameMembers items others) : SameMembers others items := fun a => (same a).symm

theorem map (same : SameMembers items others) (f : α → β) :
    SameMembers (items.map f) (others.map f) := by
  intro b
  simp only [List.mem_map, same _]

theorem filter (same : SameMembers items others) (p : α → Bool) :
    SameMembers (items.filter p) (others.filter p) := by
  intro a
  rw [List.mem_filter, List.mem_filter, same a]

theorem filterMap (same : SameMembers items others) (f : α → Option β) :
    SameMembers (items.filterMap f) (others.filterMap f) := by
  intro b
  simp only [List.mem_filterMap, same _]

theorem append (same : SameMembers items others) (more : List α) :
    SameMembers (items ++ more) (others ++ more) := by
  intro a
  rw [List.mem_append, List.mem_append, same a]

theorem nil_iff (same : SameMembers items others) : items = [] ↔ others = [] := by
  rw [List.eq_nil_iff_forall_not_mem, List.eq_nil_iff_forall_not_mem]
  exact forall_congr' fun a => not_congr (same a)

theorem isEmpty_eq (same : SameMembers items others) : items.isEmpty = others.isEmpty := by
  rw [Bool.eq_iff_iff, List.isEmpty_iff, List.isEmpty_iff]
  exact same.nil_iff

theorem any_eq (same : SameMembers items others) (p : α → Bool) : items.any p = others.any p := by
  rw [Bool.eq_iff_iff, List.any_eq_true, List.any_eq_true]
  exact exists_congr fun a => and_congr_left fun _ => same a

theorem contains_eq [BEq α] [LawfulBEq α] (same : SameMembers items others) (a : α) :
    items.contains a = others.contains a := by
  rw [Bool.eq_iff_iff, List.contains_iff_mem, List.contains_iff_mem]
  exact same a

theorem forall_iff (same : SameMembers items others) {p : α → Prop} :
    (∀ a ∈ items, p a) ↔ ∀ a ∈ others, p a :=
  forall_congr' fun a => imp_congr_left (same a)

/-- In ascending order the members are a list in one way only. -/
theorem eq_of_ascending {ns ms : List Nat} (same : SameMembers ns ms)
    (ascending : ns.Pairwise (· < ·)) (other : ms.Pairwise (· < ·)) : ns = ms :=
  ascending.eq_of_mem_iff other same

/-- Lists of the same members are read alike. -/
theorem mapM {ε : Type} (same : SameMembers items others) {read : α → Except ε β}
    {values turned : List β} (here : items.mapM read = .ok values)
    (there : others.mapM read = .ok turned) : SameMembers values turned := by
  intro b
  constructor
  · intro member
    obtain ⟨a, among, found⟩ := Outcome.mem_mapM here member
    obtain ⟨c, inOther, again⟩ := Outcome.mem_mapM_of_mem there ((same a).mp among)
    cases found.symm.trans again
    exact inOther
  · intro member
    obtain ⟨a, among, found⟩ := Outcome.mem_mapM there member
    obtain ⟨c, inFirst, again⟩ := Outcome.mem_mapM_of_mem here ((same a).mpr among)
    cases found.symm.trans again
    exact inFirst

end SameMembers

end Recurrence
