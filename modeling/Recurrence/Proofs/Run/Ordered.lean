import Recurrence.Proofs.Run.Ending

namespace Recurrence

section Lists

variable {α : Type} {rank : α → Int} {p q : α → Bool} {items : List α}

/-- Where a test, once it fails, fails for all that follows, what is found before its
first failure is all that passes it. -/
theorem takeWhile_eq_filter (closed : items.Pairwise fun a b => p b = true → p a = true) :
    items.takeWhile p = items.filter p := by
  induction items with
  | nil => rfl
  | cons a items ih =>
    obtain ⟨first, onward⟩ := List.pairwise_cons.mp closed
    by_cases passes : p a = true
    · rw [List.takeWhile_cons_of_pos passes, List.filter_cons_of_pos passes, ih onward]
    · have rest : items.filter p = [] :=
        List.filter_eq_nil_iff.mpr fun b member later => passes (first b member later)
      rw [List.takeWhile_cons_of_neg passes, List.filter_cons_of_neg passes, rest]

/-- In the order of their ranks, items that pass one of two tests are those that pass the
first and then those that pass the second, when the first come before the second. -/
theorem filter_or_eq_append (sorted : (items.map rank).Pairwise (· < ·))
    (before : ∀ a b, p a = true → q b = true → rank a < rank b) :
    (items.filter fun a => p a || q a) = items.filter p ++ items.filter q := by
  induction items with
  | nil => rfl
  | cons a items ih =>
    obtain ⟨least, onward⟩ := List.pairwise_cons.mp sorted
    have rest := ih onward
    by_cases second : q a = true
    · have notFirst (b : α) (inRest : b ∈ a :: items) : ¬p b = true := by
        intro first
        have less := before b a first second
        rcases List.mem_cons.mp inRest with rfl | later
        · exact Int.lt_irrefl _ less
        · have := least _ (List.mem_map_of_mem later)
          omega
      have noFirst : (a :: items).filter p = [] := List.filter_eq_nil_iff.mpr notFirst
      have noLater : items.filter p = [] :=
        List.filter_eq_nil_iff.mpr fun b member => notFirst b (List.mem_cons_of_mem _ member)
      rw [noFirst, List.filter_cons_of_pos second, List.filter_cons_of_pos (by simp [second]), rest,
        noLater]
      rfl
    · rw [List.filter_cons_of_neg second]
      by_cases first : p a = true
      · rw [List.filter_cons_of_pos first, List.filter_cons_of_pos (by simp [first]), rest]
        rfl
      · rw [List.filter_cons_of_neg first, List.filter_cons_of_neg (by simp [first, second]), rest]

theorem filter_after {front rest : List α} {a : α}
    (sorted : ((front ++ a :: rest).map rank).Pairwise (· < ·)) :
    ((front ++ a :: rest).filter fun b => decide (rank a < rank b)) = rest := by
  rw [List.map_append, List.map_cons, List.pairwise_append, List.pairwise_cons] at sorted
  obtain ⟨_, ⟨later, _⟩, earlier⟩ := sorted
  have none : (front.filter fun b => decide (rank a < rank b)) = [] := by
    refine List.filter_eq_nil_iff.mpr fun b member => ?_
    have := earlier _ (List.mem_map_of_mem member) _ (List.mem_cons_self ..)
    simp only [decide_eq_true_eq]
    omega
  have all : (rest.filter fun b => decide (rank a < rank b)) = rest :=
    List.filter_eq_self.mpr fun b member => decide_eq_true (later _ (List.mem_map_of_mem member))
  rw [List.filter_append, none, List.filter_cons_of_neg (by simp), all]
  rfl

theorem filter_before {front rest : List α} {a : α}
    (sorted : ((front ++ a :: rest).map rank).Pairwise (· < ·)) :
    ((front ++ a :: rest).filter fun b => decide (rank b < rank a)) = front := by
  rw [List.map_append, List.map_cons, List.pairwise_append, List.pairwise_cons] at sorted
  obtain ⟨_, ⟨later, _⟩, earlier⟩ := sorted
  have all : (front.filter fun b => decide (rank b < rank a)) = front :=
    List.filter_eq_self.mpr fun b member =>
      decide_eq_true (earlier _ (List.mem_map_of_mem member) _ (List.mem_cons_self ..))
  have none : (rest.filter fun b => decide (rank b < rank a)) = [] := by
    refine List.filter_eq_nil_iff.mpr fun b member => ?_
    have := later _ (List.mem_map_of_mem member)
    simp only [decide_eq_true_eq]
    omega
  rw [List.filter_append, all, List.filter_cons_of_neg (by simp), none, List.append_nil]

/-- What is least by rank comes first. -/
theorem eq_cons_of_least {a : α} (sorted : (items.map rank).Pairwise (· < ·)) (member : a ∈ items)
    (least : ∀ b ∈ items, rank a ≤ rank b) : ∃ rest, items = a :: rest := by
  obtain ⟨front, rest, rfl⟩ := List.append_of_mem member
  rw [List.map_append, List.pairwise_append] at sorted
  cases front with
  | nil => exact ⟨rest, rfl⟩
  | cons b front =>
    have notLess := least b (List.mem_cons_self ..)
    have less := sorted.2.2 (rank b) (List.mem_cons_self ..) (rank a) (List.mem_cons_self ..)
    omega

/-- Behind the first item above a bound there are the others above it. -/
theorem filter_after_of_filter {least : Int} {a : α} {rest : List α}
    (sorted : (items.map rank).Pairwise (· < ·))
    (found : (items.filter fun b => decide (least < rank b)) = a :: rest) :
    (items.filter fun b => decide (rank a < rank b)) = rest := by
  have parts := filter_or_eq_append (p := fun b => decide (rank b ≤ least))
    (q := fun b => decide (least < rank b)) sorted fun b c low high =>
      Int.lt_of_le_of_lt (of_decide_eq_true low) (of_decide_eq_true high)
  have every : (items.filter fun b => decide (rank b ≤ least) || decide (least < rank b)) = items := by
    refine List.filter_eq_self.mpr fun b _ => ?_
    simp only [Bool.or_eq_true, decide_eq_true_eq]
    omega
  rw [every, found] at parts
  rw [parts] at sorted ⊢
  exact filter_after sorted

/-- The items between two bounds are those up to a rank between them, that rank's own, and
those from it on. -/
theorem filter_between_split {low middle high : Int} (sorted : (items.map rank).Pairwise (· < ·))
    (after : low < middle) (before : middle < high) :
    (items.filter fun a => decide (low < rank a) && decide (rank a < high)) =
      (items.filter fun a => decide (low < rank a) && decide (rank a < middle)) ++
        (items.filter fun a => decide (rank a = middle)) ++
          items.filter fun a => decide (middle < rank a) && decide (rank a < high) := by
  rw [← filter_or_eq_append sorted, ← filter_or_eq_append sorted]
  · refine List.filter_congr fun a _ => Bool.eq_iff_iff.mpr ?_
    simp only [Bool.or_eq_true, Bool.and_eq_true, decide_eq_true_eq]
    omega
  · intro a b first second
    simp only [Bool.or_eq_true, Bool.and_eq_true, decide_eq_true_eq] at first second
    omega
  · intro a b first second
    simp only [Bool.and_eq_true, decide_eq_true_eq] at first second
    omega

/-- Whether something is the first by rank of the items that pass a test, or nothing is
when none of them does. -/
def IsFirst (rank : α → Int) (items : List α) (p : α → Bool) : Option α → Prop
  | none => ∀ a ∈ items, p a = false
  | some a => a ∈ items ∧ p a = true ∧ ∀ b ∈ items, p b = true → rank a ≤ rank b

/-- Whether something is the last by rank of the items that pass a test, or nothing is
when none of them does. -/
def IsLast (rank : α → Int) (items : List α) (p : α → Bool) : Option α → Prop
  | none => ∀ a ∈ items, p a = false
  | some a => a ∈ items ∧ p a = true ∧ ∀ b ∈ items, p b = true → rank b ≤ rank a

theorem isFirst_head? (sorted : (items.map rank).Pairwise (· < ·)) (p : α → Bool) :
    IsFirst rank items p (items.filter p).head? := by
  have kept : ((items.filter p).map rank).Pairwise (· < ·) := sorted.sublist (List.filter_sublist.map _)
  cases found : items.filter p with
  | nil =>
    intro a member
    exact Bool.eq_false_iff.mpr (List.filter_eq_nil_iff.mp found a member)
  | cons a rest =>
    obtain ⟨member, passes⟩ := List.mem_filter.mp (found ▸ List.mem_cons_self .. : a ∈ items.filter p)
    refine ⟨member, passes, fun b among passes => ?_⟩
    have among : b ∈ items.filter p := List.mem_filter.mpr ⟨among, passes⟩
    rw [found] at among kept
    rcases List.mem_cons.mp among with rfl | later
    · exact Int.le_refl _
    · exact Int.le_of_lt ((List.pairwise_cons.mp kept).1 _ (List.mem_map_of_mem later))

theorem isLast_getLast? (sorted : (items.map rank).Pairwise (· < ·)) (p : α → Bool) :
    IsLast rank items p (items.filter p).getLast? := by
  have kept : ((items.filter p).map rank).Pairwise (· < ·) := sorted.sublist (List.filter_sublist.map _)
  cases found : (items.filter p).getLast? with
  | none =>
    intro a member
    exact Bool.eq_false_iff.mpr
      (List.filter_eq_nil_iff.mp (List.getLast?_eq_none_iff.mp found) a member)
  | some a =>
    obtain ⟨front, whole⟩ := List.getLast?_eq_some_iff.mp found
    obtain ⟨member, passes⟩ := List.mem_filter.mp (List.mem_of_getLast? found)
    refine ⟨member, passes, fun b among passes => ?_⟩
    have among : b ∈ items.filter p := List.mem_filter.mpr ⟨among, passes⟩
    rw [whole] at among kept
    rw [List.map_append, List.pairwise_append] at kept
    rcases List.mem_append.mp among with earlier | only
    · exact Int.le_of_lt (kept.2.2 _ (List.mem_map_of_mem earlier) _ (List.mem_singleton_self _))
    · exact Int.le_of_eq (congrArg rank (List.mem_singleton.mp only))

end Lists

namespace Run

variable {ε α : Type} {run : Run ε α}

theorem collect_of_complete (complete : run.ending = none) : run.collect = .ok run.items := by
  rw [collect_eq, complete]

theorem items_of_collect {items : List α} (collected : run.collect = .ok items) : run.items = items := by
  rw [collect_eq] at collected
  split at collected
  · exact Except.ok.inj collected
  · cases collected

theorem find?_of_complete (complete : run.ending = none) (p : α → Bool) :
    run.find? p = .ok (run.items.filter p).head? := by
  induction run with
  | done => rfl
  | failed error => cases complete
  | next item rest ih =>
    cases passes : p item with
    | true => simp only [find?, items, passes, if_true, List.filter_cons, List.head?_cons]
    | false => simpa [find?, items, passes] using ih () complete

theorem lastWhile_of_complete (complete : run.ending = none) (p : α → Bool) (last : Option α) :
    run.lastWhile p last = .ok ((run.items.takeWhile p).getLast?.or last) := by
  induction run generalizing last with
  | done => rfl
  | failed error => cases complete
  | next item rest ih =>
    cases passes : p item with
    | true =>
      simp only [lastWhile, items, passes, if_true, ih () complete, List.takeWhile_cons,
        List.getLast?_cons, Option.some_or]
      cases ((rest ()).items.takeWhile p).getLast? <;> rfl
    | false =>
      simp only [lastWhile, items, passes, Bool.false_eq_true, if_false, List.takeWhile_cons]
      rfl

end Run

end Recurrence
