import Recurrence.Calendar.TimestampGrammar
import Recurrence.Datum.Display

namespace Recurrence

/-- The kinds of failure that are no diagnostic of a rule. -/
inductive FaultKind where
  /-- A value of a kind that the operation cannot use. -/
  | wrongKind
  /-- A value of the right kind that the operation cannot use. -/
  | badValue
  /-- A moment that leaves the years one to 9999. -/
  | overflow
  /-- A name that is not there, or that is taken where it must be free. -/
  | missingKey
  /-- A place outside of a list. -/
  | outOfBounds
  /-- A value without the member that is asked of it. -/
  | noSuchMember
  deriving DecidableEq, Repr

/-- Why an operation failed before it could give a diagnostic of the rule. -/
inductive Fault where
  | plain (kind : FaultKind)
  | unknownFrequency (value : Datum)
  | unknownWeekday (value : Datum)
  | unknownShape (value : Datum)
  | unknownOptions (names : List Text)
  | timestamp (error : TimestampError)
  /-- A rule text was refused, for the stated reason, where a text is checked as
  part of a larger value. -/
  | refusedText (reason : String)
  deriving DecidableEq

namespace Fault

abbrev wrongKind : Fault := .plain .wrongKind
abbrev badValue : Fault := .plain .badValue
abbrev overflow : Fault := .plain .overflow
abbrev missingKey : Fault := .plain .missingKey
abbrev outOfBounds : Fault := .plain .outOfBounds
abbrev noSuchMember : Fault := .plain .noSuchMember

/-- A value that must be there, where its absence is the failure. -/
def ifMissing {α : Type} (fault : Fault) : Option α → Except Fault α
  | some a => .ok a
  | none => .error fault

/-- The kind that a cause belongs to. -/
def kind : Fault → FaultKind
  | .plain kind => kind
  | .unknownOptions _ => .wrongKind
  | .unknownFrequency _ | .unknownWeekday _ | .unknownShape _ | .timestamp _ | .refusedText _ =>
    .badValue

/-- The message of a cause, where it has one. -/
def message? : Fault → Option String
  | .plain _ => none
  | .unknownFrequency value => some ("Unknown frequency: " ++ value.shownQuoted)
  | .unknownWeekday value => some ("Unknown weekday: " ++ value.shownQuoted)
  | .unknownShape value => some ("Unrecognized weekday shape: " ++ value.shownQuoted)
  | .unknownOptions names =>
    some ("Unknown rule options: " ++ String.ofList (Text.join [',', ' '] names))
  | .timestamp .empty => some "Empty timestamp"
  | .timestamp (.outOfRange t) =>
    some ("Timestamp out of range in UTC: " ++ String.ofList t)
  | .timestamp .malformed => none
  | .refusedText reason => some ("Invalid RRULE: " ++ reason)

end Fault

end Recurrence
