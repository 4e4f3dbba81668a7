namespace Recurrence

/-- The course of a search that gives its items one at a time. Nothing beyond
the items asked for is computed, so an error behind them does no harm. -/
inductive Run (ε α : Type) where
  | done
  | failed (error : ε)
  | next (item : α) (rest : Unit → Run ε α)

namespace Run

variable {ε α β : Type}

/-- All items, as a list. -/
def items : Run ε α → List α
  | done => []
  | failed _ => []
  | next item rest => item :: items (rest ())

/-- The error that the search ends with after all of its items, if any. -/
def ending : Run ε α → Option ε
  | done => none
  | failed error => some error
  | next _ rest => ending (rest ())

/-- The items of a list, without an error. -/
def ofList : List α → Run ε α
  | [] => done
  | item :: items => next item fun _ => ofList items

/-- The item that was found, and then the rest. -/
def startWith : Except ε α → (Unit → Run ε α) → Run ε α
  | .ok item, rest => next item rest
  | .error error, _ => failed error

/-- The first search and, when it ends without an error, the second. -/
def append : Run ε α → (Unit → Run ε α) → Run ε α
  | done, more => more ()
  | failed error, _ => failed error
  | next item rest, more => next item fun _ => append (rest ()) more

/-- The items that satisfy a test. -/
def filter (p : α → Bool) : Run ε α → Run ε α
  | done => done
  | failed error => failed error
  | next item rest =>
    if p item then next item fun _ => filter p (rest ()) else filter p (rest ())

/-- The items before the first that does not satisfy a test. The search ends
there, whatever would follow. -/
def takeWhile (p : α → Bool) : Run ε α → Run ε α
  | done => done
  | failed error => failed error
  | next item rest => if p item then next item fun _ => takeWhile p (rest ()) else done

/-- What is left from the first item on that does not satisfy a test. -/
def dropWhile (p : α → Bool) : Run ε α → Run ε α
  | done => done
  | failed error => failed error
  | next item rest => if p item then dropWhile p (rest ()) else next item rest

/-- The items of two searches in order, where both give theirs in order. Of two
equal items, the one of the search that was not taken from last comes first. -/
def merge (before : α → α → Bool) : Run ε α → Run ε α → Run ε α
  | failed error, _ => failed error
  | _, failed error => failed error
  | done, other => other
  | other, done => other
  | next a resta, next b restb =>
    if before a b then next a fun _ => merge before (resta ()) (next b restb)
    else next b fun _ => merge before (restb ()) (next a resta)
termination_by run other => sizeOf run + sizeOf other

/-- At most the given number of items. The search ends with the last of them. -/
def take : Nat → Run ε α → Run ε α
  | 0, _ => done
  | _ + 1, done => done
  | _ + 1, failed error => failed error
  | n + 1, next item rest => next item fun _ => take n (rest ())

/-- At most the given number of items, where the search ends only when it comes
to one item too many. An error on the way to that item still shows. -/
def cut : Nat → Run ε α → Run ε α
  | _, done => done
  | _, failed error => failed error
  | 0, next _ _ => done
  | n + 1, next item rest => next item fun _ => cut n (rest ())

/-- The first item that satisfies a test. -/
def find? (p : α → Bool) : Run ε α → Except ε (Option α)
  | done => .ok none
  | failed error => .error error
  | next item rest => if p item then .ok (some item) else find? p (rest ())

/-- The last item before the first that does not satisfy a test, where the given
one stands in when there is none. -/
def lastWhile (p : α → Bool) (last : Option α) : Run ε α → Except ε (Option α)
  | done => .ok last
  | failed error => .error error
  | next item rest => if p item then lastWhile p (some item) (rest ()) else .ok last

/-- All items behind those already gathered, which are in reverse. -/
def gather (gathered : List α) : Run ε α → Except ε (List α)
  | done => .ok gathered.reverse
  | failed error => .error error
  | next item rest => gather (item :: gathered) (rest ())

/-- All items, or the error that the search ends with. -/
def collect (run : Run ε α) : Except ε (List α) := run.gather []

@[simp] theorem items_ofList (l : List α) : (ofList l : Run ε α).items = l := by
  induction l with
  | nil => rfl
  | cons a l ih => simp [ofList, items, ih]

@[simp] theorem ending_ofList (l : List α) : (ofList l : Run ε α).ending = none := by
  induction l with
  | nil => rfl
  | cons a l ih => simp [ofList, ending, ih]

theorem items_append (run : Run ε α) (more : Unit → Run ε α) (complete : run.ending = none) :
    (run.append more).items = run.items ++ (more ()).items := by
  induction run with
  | done => rfl
  | failed error => simp [ending] at complete
  | next item rest ih => simpa [append, items] using ih () (by simpa [ending] using complete)

@[simp] theorem items_filter (p : α → Bool) (run : Run ε α) :
    (run.filter p).items = run.items.filter p := by
  induction run with
  | done => rfl
  | failed error => rfl
  | next item rest ih =>
    cases h : p item <;> simp [filter, items, h, ih]

@[simp] theorem ending_filter (p : α → Bool) (run : Run ε α) :
    (run.filter p).ending = run.ending := by
  induction run with
  | done => rfl
  | failed error => rfl
  | next item rest ih =>
    cases h : p item <;> simp [filter, ending, h, ih]

@[simp] theorem items_takeWhile (p : α → Bool) (run : Run ε α) :
    (run.takeWhile p).items = run.items.takeWhile p := by
  induction run with
  | done => rfl
  | failed error => rfl
  | next item rest ih =>
    cases h : p item <;> simp [takeWhile, items, h, ih]

@[simp] theorem items_cut (n : Nat) (run : Run ε α) : (run.cut n).items = run.items.take n := by
  induction run generalizing n with
  | done => simp [cut, items]
  | failed error => simp [cut, items]
  | next item rest ih => cases n <;> simp [cut, items, ih]

theorem gather_eq (gathered : List α) (run : Run ε α) :
    run.gather gathered =
      match run.ending with
      | none => .ok (gathered.reverse ++ run.items)
      | some error => .error error := by
  induction run generalizing gathered with
  | done => simp [gather, ending, items]
  | failed error => rfl
  | next item rest ih =>
    simp only [gather, ending, items, ih]
    split <;> simp

theorem collect_eq (run : Run ε α) :
    run.collect =
      match run.ending with
      | none => .ok run.items
      | some error => .error error := by
  simp [collect, gather_eq]

end Run

end Recurrence
