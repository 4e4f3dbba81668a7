import Recurrence.Rule.Basic

namespace Recurrence

/-- A part of a rule with a value that fits the part. -/
inductive Setting where
  | frequency (f : Frequency)
  | interval (n : Nat)
  | count (n : Nat)
  | ends (t : Timestamp) (normal : t.isNormal)
  | weekStart (day : Weekday)
  | list (part : ListPart) (items : List Datum)

namespace Rule

/-- The rule with a frequency and nothing else. -/
def bare (frequency : Datum) : Rule where
  frequency := frequency
  interval := .int 1
  count := .none
  ends := .none
  weekStart := .weekday .monday
  setPositions := []
  months := []
  monthDays := []
  yearDays := []
  weekNumbers := []
  weekdays := []
  hours := []
  minutes := []
  seconds := []
  ends_normal := none_normal

/-- The rule with other values in one list part. -/
def withValues (r : Rule) (items : List Datum) : ListPart → Rule
  | .setPosition => { r with setPositions := items }
  | .month => { r with months := items }
  | .monthDay => { r with monthDays := items }
  | .yearDay => { r with yearDays := items }
  | .weekNumber => { r with weekNumbers := items }
  | .weekday => { r with weekdays := items }
  | .hour => { r with hours := items }
  | .minute => { r with minutes := items }
  | .second => { r with seconds := items }

/-- The rule with one part set. -/
def put (r : Rule) : Setting → Rule
  | .frequency f => { r with frequency := .frequency f }
  | .interval n => { r with interval := .int n }
  | .count n => { r with count := .int n }
  | .ends t normal =>
    { r with
      ends := .moment t
      ends_normal := fun u same => by cases same; exact normal }
  | .weekStart day => { r with weekStart := .weekday day }
  | .list part items => r.withValues items part

/-- The rule with the given parts set, one after the other. -/
def ofSettings (settings : List Setting) : Rule := settings.foldl put (bare .none)

theorem values_withValues (r : Rule) (items : List Datum) (part other : ListPart) :
    (r.withValues items part).values other = if other = part then items else r.values other := by
  cases part <;> cases other <;> rfl

end Rule

end Recurrence
