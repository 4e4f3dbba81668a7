import Recurrence.Text.Basic

namespace Recurrence

/-- The days of the week. -/
inductive Weekday where
  | monday | tuesday | wednesday | thursday | friday | saturday | sunday
  deriving DecidableEq, Repr

namespace Weekday

/-- The seven days in order, Monday first. -/
def all : List Weekday := [monday, tuesday, wednesday, thursday, friday, saturday, sunday]

/-- The place of the day in the week, Monday being zero. -/
def index : Weekday → Nat
  | monday => 0
  | tuesday => 1
  | wednesday => 2
  | thursday => 3
  | friday => 4
  | saturday => 5
  | sunday => 6

/-- The two-letter code that rule texts use. -/
def code : Weekday → Text
  | monday => ['M', 'O']
  | tuesday => ['T', 'U']
  | wednesday => ['W', 'E']
  | thursday => ['T', 'H']
  | friday => ['F', 'R']
  | saturday => ['S', 'A']
  | sunday => ['S', 'U']

/-- The full name, in capitals. -/
def name : Weekday → Text
  | monday => ['M', 'O', 'N', 'D', 'A', 'Y']
  | tuesday => ['T', 'U', 'E', 'S', 'D', 'A', 'Y']
  | wednesday => ['W', 'E', 'D', 'N', 'E', 'S', 'D', 'A', 'Y']
  | thursday => ['T', 'H', 'U', 'R', 'S', 'D', 'A', 'Y']
  | friday => ['F', 'R', 'I', 'D', 'A', 'Y']
  | saturday => ['S', 'A', 'T', 'U', 'R', 'D', 'A', 'Y']
  | sunday => ['S', 'U', 'N', 'D', 'A', 'Y']

/-- The day with the given code, in capitals. -/
def ofCode? (t : Text) : Option Weekday := all.find? fun day => day.code = t

/-- The day called by its code, its name or the first three letters of its
name, in capitals. -/
def ofAlias? (t : Text) : Option Weekday :=
  all.find? fun day => day.code = t ∨ day.name = t ∨ day.name.take 3 = t

/-- The place in the week of the day with the given number; day one is a Monday. -/
def indexOfNumber (number : Nat) : Nat := (number + 6) % 7

theorem ofCode?_code (day : Weekday) : ofCode? day.code = some day := by
  cases day <;> decide

theorem code_of_ofCode? {t : Text} {day : Weekday} (found : ofCode? t = some day) :
    day.code = t := by
  simpa using List.find?_some found

end Weekday

end Recurrence
