import Recurrence.Calendar.TimestampText
import Recurrence.Schedule.Basic

namespace Recurrence

/-- Why a schedule cannot be made of the given values, or is of no use. -/
inductive Diagnostic where
  | invalidFrequency (value : Datum)
  | invalidWeekStart (value : Datum)
  | invalidInterval (value : Datum)
  | invalidMonth (value : Datum)
  | invalidWeekday (value : Datum)
  | outOfRange (part : ListPart) (value : Datum) (low high : Int)
  /-- Week numbers with another frequency than the yearly one. -/
  | weekNumberFrequency (frequency : Frequency) (values : List Datum)
  /-- Days of the year with a daily, weekly or monthly frequency. -/
  | yearDayFrequency (frequency : Frequency) (values : List Datum)
  /-- Days of the month with a weekly frequency. -/
  | monthDayFrequency (values : List Datum)
  /-- An ordinal weekday where the period has no numbered weekdays. -/
  | ordinalFrequency (choice : DayChoice)
  /-- An ordinal that no period reaches. -/
  | ordinalOutOfRange (choice : DayChoice) (ordinal : Datum) (limit : Nat)
  /-- Set positions with nothing to choose from. -/
  | lonePositions (values : List Datum)
  | countWithEnd (count : Datum)
  | endBeforeStart (ends start : Timestamp)
  /-- Days of the month that none of the months has. -/
  | unreachable (days months : List Datum)
  deriving DecidableEq

namespace Diagnostic

/-- Whether the values could not even form a schedule. -/
def isConstruction : Diagnostic → Bool
  | invalidFrequency _ | invalidWeekStart _ | invalidInterval _ | invalidMonth _
  | invalidWeekday _ => true
  | _ => false

/-- The name of the diagnostic for machines. -/
def code : Diagnostic → String
  | invalidFrequency _ => "invalid-frequency"
  | invalidWeekStart _ => "invalid-week-start"
  | invalidInterval _ => "invalid-interval"
  | invalidMonth _ => "invalid-month"
  | invalidWeekday _ => "invalid-weekday"
  | outOfRange .. | ordinalOutOfRange .. => "invalid-field-value-range"
  | weekNumberFrequency .. | yearDayFrequency .. | monthDayFrequency _ | ordinalFrequency _ =>
    "invalid-by-rule-and-frequency"
  | lonePositions _ => "by-set-pos-without-by-rule"
  | countWithEnd _ => "count-with-until"
  | endBeforeStart .. => "until-before-start"
  | unreachable .. => "unreachable"

/-- The part that the diagnostic is about. -/
def part : Diagnostic → Part
  | invalidFrequency _ => .frequency
  | invalidWeekStart _ => .weekStart
  | invalidInterval _ => .interval
  | invalidMonth _ => .list .month
  | invalidWeekday _ => .list .weekday
  | outOfRange part .. => .list part
  | weekNumberFrequency .. => .list .weekNumber
  | yearDayFrequency .. => .list .yearDay
  | monthDayFrequency _ => .list .monthDay
  | ordinalFrequency _ | ordinalOutOfRange .. => .list .weekday
  | lonePositions _ => .list .setPosition
  | countWithEnd _ => .count
  | endBeforeStart .. => .ends
  | unreachable .. => .list .monthDay

/-- The value that the diagnostic is about. -/
def value : Diagnostic → Datum
  | invalidFrequency value | invalidWeekStart value | invalidInterval value
  | invalidMonth value | invalidWeekday value => value
  | outOfRange _ value _ _ => value
  | weekNumberFrequency _ values | yearDayFrequency _ values | monthDayFrequency values
  | lonePositions values => .list values
  | ordinalFrequency choice | ordinalOutOfRange choice .. => .str choice.text
  | countWithEnd count => count
  | endBeforeStart ends _ => .str ends.isoText
  | unreachable days _ => .list days

/-- The diagnostic in words. -/
def message : Diagnostic → String
  | invalidFrequency value => "Invalid frequency: " ++ value.shownQuoted
  | invalidWeekStart value => "Invalid week start: " ++ value.shownQuoted
  | invalidInterval value => "Invalid interval: " ++ value.shownQuoted
  | invalidMonth value => "Invalid month: " ++ value.shownQuoted
  | invalidWeekday value => "Invalid weekday: " ++ value.shownQuoted
  | outOfRange part value low high =>
    part.name ++ " value " ++ value.shown ++ " is outside " ++ toString low ++ ".." ++ toString high
  | weekNumberFrequency frequency _ =>
    "BYWEEKNO can only be used with YEARLY, not " ++ String.ofList frequency.name
  | yearDayFrequency frequency _ =>
    "BYYEARDAY cannot be used with " ++ String.ofList frequency.name
  | monthDayFrequency _ => "BYMONTHDAY cannot be used with WEEKLY"
  | ordinalFrequency choice =>
    "BYDAY ordinal " ++ String.ofList choice.text ++
      " needs MONTHLY, or YEARLY without BYWEEKNO"
  | ordinalOutOfRange _ ordinal limit =>
    "BYDAY ordinal " ++ ordinal.shown ++ " is outside -" ++ toString limit ++ ".." ++
      toString limit
  | lonePositions _ => "BYSETPOS must be combined with another BYxxx rule part"
  | countWithEnd _ => "COUNT and UNTIL must not both be set"
  | endBeforeStart ends start =>
    "UNTIL " ++ String.ofList ends.isoText ++ " is before start " ++ String.ofList start.isoText
  | unreachable days months =>
    "BYMONTHDAY " ++ (Datum.list days).shownQuoted ++ " never occurs in BYMONTH " ++
      (Datum.list months).shownQuoted

/-- The name of the kind of diagnostic. -/
def kind (d : Diagnostic) : String :=
  if d.isConstruction then "ConstructionError" else "EngineValidationError"

/-- The diagnostic with what it is about, for developers. -/
def display (d : Diagnostic) : String :=
  d.kind ++ "(code=" ++ (Datum.ofString d.code).shownQuoted ++ ", field=" ++
    (Datum.ofString d.part.name).shownQuoted ++ ", value=" ++ d.value.shownQuoted ++ ")"

end Diagnostic

end Recurrence
