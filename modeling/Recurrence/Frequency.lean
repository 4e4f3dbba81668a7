import Recurrence.Text.Basic

namespace Recurrence

/-- The period that a rule repeats in. -/
inductive Frequency where
  | secondly | minutely | hourly | daily | weekly | monthly | yearly
  deriving DecidableEq, Repr

namespace Frequency

/-- All frequencies, the finest first. -/
def all : List Frequency := [secondly, minutely, hourly, daily, weekly, monthly, yearly]

/-- The name in capitals, as rule texts use it. -/
def name : Frequency → Text
  | secondly => ['S', 'E', 'C', 'O', 'N', 'D', 'L', 'Y']
  | minutely => ['M', 'I', 'N', 'U', 'T', 'E', 'L', 'Y']
  | hourly => ['H', 'O', 'U', 'R', 'L', 'Y']
  | daily => ['D', 'A', 'I', 'L', 'Y']
  | weekly => ['W', 'E', 'E', 'K', 'L', 'Y']
  | monthly => ['M', 'O', 'N', 'T', 'H', 'L', 'Y']
  | yearly => ['Y', 'E', 'A', 'R', 'L', 'Y']

/-- The name with one capital, as exported rules use it. -/
def label : Frequency → Text
  | secondly => ['S', 'e', 'c', 'o', 'n', 'd', 'l', 'y']
  | minutely => ['M', 'i', 'n', 'u', 't', 'e', 'l', 'y']
  | hourly => ['H', 'o', 'u', 'r', 'l', 'y']
  | daily => ['D', 'a', 'i', 'l', 'y']
  | weekly => ['W', 'e', 'e', 'k', 'l', 'y']
  | monthly => ['M', 'o', 'n', 't', 'h', 'l', 'y']
  | yearly => ['Y', 'e', 'a', 'r', 'l', 'y']

/-- The frequency with the given name, in capitals. -/
def ofName? (t : Text) : Option Frequency := all.find? fun f => f.name = t

/-- Whether a period is shorter than a day, so that rules step through the clock. -/
def isWithinDay : Frequency → Bool
  | secondly | minutely | hourly => true
  | daily | weekly | monthly | yearly => false

theorem ofName?_name (f : Frequency) : ofName? f.name = some f := by
  cases f <;> decide

theorem name_of_ofName? {t : Text} {f : Frequency} (found : ofName? t = some f) :
    f.name = t := by
  simpa using List.find?_some found

end Frequency

end Recurrence
