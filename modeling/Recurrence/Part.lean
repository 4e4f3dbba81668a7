import Recurrence.Text.Basic

namespace Recurrence

/-- The parts of a rule that hold a list of values. -/
inductive ListPart where
  | setPosition | month | monthDay | yearDay | weekNumber | weekday | hour | minute | second
  deriving DecidableEq, Repr

/-- The parts of a rule. -/
inductive Part where
  | frequency
  | interval
  | count
  /-- The moment after which there are no occurrences. -/
  | ends
  | weekStart
  | list (part : ListPart)
  deriving DecidableEq, Repr

namespace ListPart

/-- The list parts in the order in which texts and exports give them. -/
def all : List ListPart :=
  [setPosition, month, monthDay, yearDay, weekNumber, weekday, hour, minute, second]

/-- The key of the part in a rule text. -/
def key : ListPart → Text
  | setPosition => ['B', 'Y', 'S', 'E', 'T', 'P', 'O', 'S']
  | month => ['B', 'Y', 'M', 'O', 'N', 'T', 'H']
  | monthDay => ['B', 'Y', 'M', 'O', 'N', 'T', 'H', 'D', 'A', 'Y']
  | yearDay => ['B', 'Y', 'Y', 'E', 'A', 'R', 'D', 'A', 'Y']
  | weekNumber => ['B', 'Y', 'W', 'E', 'E', 'K', 'N', 'O']
  | weekday => ['B', 'Y', 'D', 'A', 'Y']
  | hour => ['B', 'Y', 'H', 'O', 'U', 'R']
  | minute => ['B', 'Y', 'M', 'I', 'N', 'U', 'T', 'E']
  | second => ['B', 'Y', 'S', 'E', 'C', 'O', 'N', 'D']

/-- The name of the part in exports and diagnostics. -/
def name : ListPart → String
  | setPosition => "by_set_pos"
  | month => "by_month"
  | monthDay => "by_month_day"
  | yearDay => "by_year_day"
  | weekNumber => "by_week_no"
  | weekday => "by_weekday"
  | hour => "by_hour"
  | minute => "by_minute"
  | second => "by_second"

end ListPart

namespace Part

/-- All parts in the order in which texts and exports give them. -/
def all : List Part := [frequency, interval, count, ends, weekStart] ++ ListPart.all.map list

/-- The key of the part in a rule text. -/
def key : Part → Text
  | frequency => ['F', 'R', 'E', 'Q']
  | interval => ['I', 'N', 'T', 'E', 'R', 'V', 'A', 'L']
  | count => ['C', 'O', 'U', 'N', 'T']
  | ends => ['U', 'N', 'T', 'I', 'L']
  | weekStart => ['W', 'K', 'S', 'T']
  | list part => part.key

/-- The name of the part in exports and diagnostics. -/
def name : Part → String
  | frequency => "frequency"
  | interval => "interval"
  | count => "count"
  | ends => "until"
  | weekStart => "week_start"
  | list part => part.name

/-- The part with the given key, in capitals. -/
def ofKey? (t : Text) : Option Part := all.find? fun part => part.key = t

/-- The part with the given name. -/
def ofName? (t : Text) : Option Part := all.find? fun part => part.name.toList = t

theorem mem_all (part : Part) : part ∈ all := by
  cases part with
  | list p => cases p <;> decide
  | _ => decide

theorem ofKey?_key (part : Part) : ofKey? part.key = some part := by
  cases part with
  | list p => cases p <;> decide
  | _ => decide

theorem key_of_ofKey? {t : Text} {part : Part} (found : ofKey? t = some part) : part.key = t := by
  simpa using List.find?_some found

theorem ofName?_name (part : Part) : ofName? part.name.toList = some part := by
  cases part with
  | list p => cases p <;> decide
  | _ => decide

end Part

end Recurrence
