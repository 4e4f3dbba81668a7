import Recurrence.Schedule.Occurrences

namespace Recurrence.Run

variable {ε α : Type}

theorem ending_startWith (item : Except ε α) (rest : Unit → Run ε α) :
    (startWith item rest).ending = none ↔ (∃ a, item = .ok a) ∧ (rest ()).ending = none := by
  cases item with
  | ok a => exact ⟨fun complete => ⟨⟨a, rfl⟩, complete⟩, fun both => both.2⟩
  | error error =>
    refine ⟨fun complete => (nomatch complete), ?_⟩
    rintro ⟨⟨a, found⟩, _⟩
    cases found

theorem ending_append (run : Run ε α) (more : Unit → Run ε α) :
    (run.append more).ending =
      match run.ending with
      | none => (more ()).ending
      | some error => some error := by
  induction run with
  | done => rfl
  | failed error => rfl
  | next item rest ih => exact ih ()

/-- Behind an error nothing more is found. -/
theorem items_append_of_failed {run : Run ε α} {error : ε} (failed : run.ending = some error)
    (more : Unit → Run ε α) : (run.append more).items = run.items := by
  induction run with
  | done => cases failed
  | failed error => rfl
  | next item rest ih => exact congrArg (item :: ·) (ih () failed)

@[simp] theorem items_dropWhile (p : α → Bool) (run : Run ε α) :
    (run.dropWhile p).items = run.items.dropWhile p := by
  induction run with
  | done => rfl
  | failed error => rfl
  | next item rest ih => cases passes : p item <;> simp [dropWhile, items, passes, ih]

@[simp] theorem ending_dropWhile (p : α → Bool) (run : Run ε α) :
    (run.dropWhile p).ending = run.ending := by
  induction run with
  | done => rfl
  | failed error => rfl
  | next item rest ih => cases passes : p item <;> simp [dropWhile, ending, passes, ih]

/-- A search that is cut by a test comes to its error only when all of its items
pass the test. -/
theorem ending_takeWhile (p : α → Bool) (run : Run ε α) :
    (run.takeWhile p).ending = if run.items.all p then run.ending else none := by
  induction run with
  | done => rfl
  | failed error => rfl
  | next item rest ih =>
    cases passes : p item with
    | true => simpa [takeWhile, ending, items, passes] using ih ()
    | false => simp [takeWhile, ending, items, passes]

/-- A search that is cut after so many items comes to its error only when it has
no more than these. -/
theorem ending_cut (n : Nat) (run : Run ε α) :
    (run.cut n).ending = if run.items.length ≤ n then run.ending else none := by
  induction run generalizing n with
  | done => simp [cut, ending]
  | failed error => simp [cut, ending, items]
  | next item rest ih =>
    cases n with
    | zero => simp [cut, ending, items]
    | succ n => simpa [cut, ending, items] using ih () n

theorem ending_cut_of_none {n : Nat} {run : Run ε α} (complete : run.ending = none) :
    (run.cut n).ending = none := by
  rw [ending_cut, complete, ite_self]

end Recurrence.Run
