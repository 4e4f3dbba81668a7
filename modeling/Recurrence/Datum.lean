import Recurrence.Calendar.Timestamp
import Recurrence.Calendar.Weekday
import Recurrence.Decimal
import Recurrence.Frequency

namespace Recurrence

/-- A value of any shape, as callers hand it in before anything is checked.
Rules built by hand keep such values until the rule is validated. -/
inductive Datum where
  | none
  | bool (b : Bool)
  | int (n : Int)
  | float (d : Decimal)
  | str (t : Text)
  | list (items : List Datum)
  | tuple (items : List Datum)
  | dict (entries : List (Text × Datum))
  | frequency (f : Frequency)
  | weekday (w : Weekday)
  /-- Every occurrence of a day in the period. -/
  | every (day : Datum)
  /-- One occurrence of a day in the period, counted from its end when negative. -/
  | nth (ordinal day : Datum)
  | moment (t : Timestamp)

namespace Datum

/-- The empty list of values, which parts have by default. -/
instance : Inhabited Datum := ⟨.none⟩

/-- A text from a literal. -/
def ofString (s : String) : Datum := .str s.toList

/-- The text that a value is: frequencies and weekdays are texts too. -/
def asText? : Datum → Option Text
  | .str t => some t
  | .frequency f => some f.name
  | .weekday w => some w.code
  | _ => Option.none

/-- The integer that a value is, truth values not being integers. -/
def asInt? : Datum → Option Int
  | .int n => some n
  | _ => Option.none

/-- The integer that a value is, truth values being zero and one. -/
def asIntOrBool? : Datum → Option Int
  | .int n => some n
  | .bool b => some (if b then 1 else 0)
  | _ => Option.none

/-- Whether a value counts as true: zero, nothing and empty values do not. -/
def truthy : Datum → Bool
  | .none => false
  | .bool b => b
  | .int n => n != 0
  | .float d => !d.isZero
  | .str t => !t.isEmpty
  | .list items => !items.isEmpty
  | .tuple items => !items.isEmpty
  | .dict entries => !entries.isEmpty
  | .frequency _ | .weekday _ | .every _ | .nth _ _ | .moment _ => true

/-- The items of a value that has items: a text has its characters and a
mapping its keys. -/
def items? : Datum → Option (List Datum)
  | .str t => some (t.map fun c => .str [c])
  | .frequency f => some (f.name.map fun c => .str [c])
  | .weekday w => some (w.code.map fun c => .str [c])
  | .list items => some items
  | .tuple items => some items
  | .dict entries => some (entries.map fun entry => .str entry.1)
  | _ => Option.none

/-- The two halves of a pair. -/
def asPair? : Datum → Option (Datum × Datum)
  | .list [a, b] => some (a, b)
  | .tuple [a, b] => some (a, b)
  | _ => Option.none

mutual

/-- Equality of structure, decided. -/
def decEq : (a b : Datum) → Decidable (a = b)
  | .none, b => by cases b <;> first | exact isTrue rfl | exact isFalse (by simp)
  | .bool a, b => by
    cases b with
    | bool c => exact if h : a = c then isTrue (by rw [h]) else isFalse (by simp [h])
    | _ => exact isFalse (by simp)
  | .int a, b => by
    cases b with
    | int c => exact if h : a = c then isTrue (by rw [h]) else isFalse (by simp [h])
    | _ => exact isFalse (by simp)
  | .float a, b => by
    cases b with
    | float c => exact if h : a = c then isTrue (by rw [h]) else isFalse (by simp [h])
    | _ => exact isFalse (by simp)
  | .str a, b => by
    cases b with
    | str c => exact if h : a = c then isTrue (by rw [h]) else isFalse (by simp [h])
    | _ => exact isFalse (by simp)
  | .list a, b => by
    cases b with
    | list c =>
      exact match listDecEq a c with
        | isTrue h => isTrue (by rw [h])
        | isFalse h => isFalse (by simp [h])
    | _ => exact isFalse (by simp)
  | .tuple a, b => by
    cases b with
    | tuple c =>
      exact match listDecEq a c with
        | isTrue h => isTrue (by rw [h])
        | isFalse h => isFalse (by simp [h])
    | _ => exact isFalse (by simp)
  | .dict a, b => by
    cases b with
    | dict c =>
      exact match entriesDecEq a c with
        | isTrue h => isTrue (by rw [h])
        | isFalse h => isFalse (by simp [h])
    | _ => exact isFalse (by simp)
  | .frequency a, b => by
    cases b with
    | frequency c => exact if h : a = c then isTrue (by rw [h]) else isFalse (by simp [h])
    | _ => exact isFalse (by simp)
  | .weekday a, b => by
    cases b with
    | weekday c => exact if h : a = c then isTrue (by rw [h]) else isFalse (by simp [h])
    | _ => exact isFalse (by simp)
  | .every a, b => by
    cases b with
    | every c =>
      exact match decEq a c with
        | isTrue h => isTrue (by rw [h])
        | isFalse h => isFalse (by simp [h])
    | _ => exact isFalse (by simp)
  | .nth n a, b => by
    cases b with
    | nth m c =>
      exact match decEq n m, decEq a c with
        | isTrue h, isTrue k => isTrue (by rw [h, k])
        | isFalse h, _ => isFalse (by simp [h])
        | _, isFalse k => isFalse (by simp [k])
    | _ => exact isFalse (by simp)
  | .moment a, b => by
    cases b with
    | moment c => exact if h : a = c then isTrue (by rw [h]) else isFalse (by simp [h])
    | _ => exact isFalse (by simp)

/-- Equality of structure for lists of values, decided. -/
def listDecEq : (a b : List Datum) → Decidable (a = b)
  | [], [] => isTrue rfl
  | [], _ :: _ => isFalse (by simp)
  | _ :: _, [] => isFalse (by simp)
  | a :: as, b :: bs =>
    match decEq a b, listDecEq as bs with
    | isTrue h, isTrue k => isTrue (by rw [h, k])
    | isFalse h, _ => isFalse (by simp [h])
    | _, isFalse k => isFalse (by simp [k])

/-- Equality of structure for the entries of mappings, decided. -/
def entriesDecEq : (a b : List (Text × Datum)) → Decidable (a = b)
  | [], [] => isTrue rfl
  | [], _ :: _ => isFalse (by simp)
  | _ :: _, [] => isFalse (by simp)
  | (s, a) :: as, (t, b) :: bs =>
    if g : s = t then
      match decEq a b, entriesDecEq as bs with
      | isTrue h, isTrue k => isTrue (by rw [g, h, k])
      | isFalse h, _ => isFalse (by simp [h])
      | _, isFalse k => isFalse (by simp [k])
    else isFalse (by simp [g])

end

instance : DecidableEq Datum := decEq

end Datum

/-- Named values in order, each name at most once. -/
abbrev Entries := List (Text × Datum)

namespace Entries

/-- Gives a name a value. A name that is there keeps its place. -/
def put (name : Text) (value : Datum) : Entries → Entries
  | [] => [(name, value)]
  | entry :: entries =>
    if entry.1 = name then (name, value) :: entries else entry :: put name value entries

/-- Gives the names of the second mapping their values, in its order. -/
def overlay (entries others : Entries) : Entries :=
  others.foldl (fun entries entry => entries.put entry.1 entry.2) entries

/-- Adds the names of the second mapping that are not there yet. -/
def complete (entries more : Entries) : Entries :=
  entries ++ more.filter fun entry => entries.all fun present => present.1 != entry.1

end Entries

end Recurrence
