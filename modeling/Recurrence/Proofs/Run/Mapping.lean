import Recurrence.Schedule.Occurrences

namespace Recurrence.Run

variable {ε α β : Type}

/-- The same search, of whose items only a part is looked at. -/
def map (f : α → β) : Run ε α → Run ε β
  | done => done
  | failed error => failed error
  | next item rest => next (f item) fun _ => map f (rest ())

theorem items_map (f : α → β) (run : Run ε α) : (run.map f).items = run.items.map f := by
  induction run with
  | done => rfl
  | failed error => rfl
  | next item rest ih => simp only [map, items, ih, List.map_cons]

theorem ending_map (f : α → β) (run : Run ε α) : (run.map f).ending = run.ending := by
  induction run with
  | done => rfl
  | failed error => rfl
  | next item rest ih => simpa only [map, ending] using ih ()

theorem map_ofList (f : α → β) (l : List α) :
    (ofList l : Run ε α).map f = ofList (l.map f) := by
  induction l with
  | nil => rfl
  | cons a l ih => simp only [ofList, map, ih, List.map_cons]

theorem map_startWith (f : α → β) (item : Except ε α) (rest : Unit → Run ε α) :
    (startWith item rest).map f = startWith (item.map f) fun _ => (rest ()).map f := by
  cases item <;> rfl

theorem map_append (f : α → β) (run : Run ε α) (more : Unit → Run ε α) :
    (run.append more).map f = (run.map f).append fun _ => (more ()).map f := by
  induction run with
  | done => rfl
  | failed error => rfl
  | next item rest ih => simp only [append, map, ih]

theorem map_filter {p : α → Bool} {q : β → Bool} {f : α → β} {run : Run ε α}
    (agree : ∀ a ∈ run.items, q (f a) = p a) : (run.filter p).map f = (run.map f).filter q := by
  induction run with
  | done => rfl
  | failed error => rfl
  | next item rest ih =>
    have first := agree item (List.mem_cons_self ..)
    have later := ih () fun a member => agree a (List.mem_cons_of_mem _ member)
    cases passes : p item with
    | true =>
      rw [passes] at first
      simp only [filter, map, passes, first, if_true, later]
    | false =>
      rw [passes] at first
      simp only [filter, map, passes, first, Bool.false_eq_true, if_false, later]

theorem map_takeWhile {p : α → Bool} {q : β → Bool} {f : α → β} (agree : ∀ a, q (f a) = p a)
    (run : Run ε α) : (run.takeWhile p).map f = (run.map f).takeWhile q := by
  induction run with
  | done => rfl
  | failed error => rfl
  | next item rest ih =>
    cases passes : p item with
    | true => simp only [takeWhile, map, agree, passes, if_true, ih]
    | false => simp only [takeWhile, map, agree, passes, Bool.false_eq_true, if_false]

theorem map_cut (f : α → β) (n : Nat) (run : Run ε α) : (run.cut n).map f = (run.map f).cut n := by
  induction run generalizing n with
  | done => cases n <;> rfl
  | failed error => cases n <;> rfl
  | next item rest ih =>
    cases n with
    | zero => rfl
    | succ n => simp only [cut, map, ih]

theorem find?_map {p : α → Bool} {q : β → Bool} {f : α → β} (agree : ∀ a, q (f a) = p a)
    (run : Run ε α) : (run.map f).find? q = (run.find? p).map (Option.map f) := by
  induction run with
  | done => rfl
  | failed error => rfl
  | next item rest ih =>
    cases passes : p item with
    | true =>
      simp only [map, find?, agree, passes, if_true]
      rfl
    | false => simp only [map, find?, agree, passes, Bool.false_eq_true, if_false, ih]

theorem lastWhile_map {p : α → Bool} {q : β → Bool} {f : α → β} (agree : ∀ a, q (f a) = p a)
    (last : Option α) (run : Run ε α) :
    (run.map f).lastWhile q (last.map f) = (run.lastWhile p last).map (Option.map f) := by
  induction run generalizing last with
  | done => rfl
  | failed error => rfl
  | next item rest ih =>
    cases passes : p item with
    | true =>
      simp only [map, lastWhile, agree, passes, if_true]
      exact ih () (some item)
    | false =>
      simp only [map, lastWhile, agree, passes, Bool.false_eq_true, if_false]
      rfl

theorem collect_map (f : α → β) (run : Run ε α) :
    (run.map f).collect = run.collect.map (List.map f) := by
  rw [collect_eq, collect_eq, ending_map, items_map]
  cases run.ending <;> rfl

theorem mem_append {run : Run ε α} {more : Unit → Run ε α} {a : α}
    (member : a ∈ (run.append more).items) : a ∈ run.items ∨ a ∈ (more ()).items := by
  induction run with
  | done => exact .inr member
  | failed error => cases member
  | next item rest ih =>
    rcases List.mem_cons.mp member with rfl | later
    · exact .inl (List.mem_cons_self ..)
    · exact (ih () later).imp_left (List.mem_cons_of_mem _)

/-- A search without an error is known by its items. -/
theorem eq_ofList {run : Run ε α} (complete : run.ending = none) : run = ofList run.items := by
  induction run with
  | done => rfl
  | failed error => cases complete
  | next item rest ih =>
    have onward : rest = fun _ => ofList (rest ()).items := funext fun _ => ih () complete
    rw [items, ofList, ← onward]

end Recurrence.Run
