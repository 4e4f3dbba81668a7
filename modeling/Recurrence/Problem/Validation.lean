import Recurrence.Problem.Basic
import Recurrence.Validation.Basic

namespace Recurrence

namespace Problem

/-- A problem with the value of a named part. -/
def inPart (kind name type detail : String) (value : Datum) : Problem :=
  ofValue [kind] (.ofString detail) (.ofString type) (.ofString name) value []

def invalidStart (value : Datum) : Problem :=
  inPart "InvalidStartError" "start" "invalid-start"
    ("Invalid start timestamp: " ++ value.shown) value

def invalidFrequency (value : Datum) : Problem :=
  inPart "InvalidFrequencyValueError" Part.frequency.name "invalid-frequency"
    ("Invalid frequency: " ++ value.shownQuoted) value

def invalidInterval (value : Datum) : Problem :=
  inPart "InvalidIntervalValueError" Part.interval.name "invalid-interval"
    ("Invalid interval: " ++ value.shownQuoted ++ ", expected a positive integer") value

def invalidCount (value : Datum) : Problem :=
  inPart "InvalidCountValueError" Part.count.name "invalid-count"
    ("Invalid count: " ++ value.shownQuoted ++ ", expected a non-negative integer") value

def invalidWeekStart (value : Datum) : Problem :=
  inPart "InvalidWeekStartValueError" Part.weekStart.name "invalid-week-start"
    ("Invalid week start: " ++ value.shownQuoted) value

def invalidWeekday (value : Datum) : Problem :=
  (inPart "InvalidWeekdayCodeError" ListPart.weekday.name "invalid-weekday"
    ("Invalid weekday: " ++ value.shownQuoted) value).withMembers [("code".toList, value)]

/-- A problem with a value that is not in the range of its part. -/
def notInRange (kinds : List String) (field value low high type : Datum) : Problem :=
  let range := [("low".toList, low), ("high".toList, high)]
  (ofValue kinds
    (.ofString (field.shown ++ " value " ++ value.shownQuoted ++ " is outside " ++ low.shown ++
      ".." ++ high.shown)) type field value range).withMembers range

/-- The kind of the problems with a value out of range. -/
def rangeKind : String := "FieldRangeError"

def outOfRange (field value low high type : Datum) : Problem :=
  notInRange [rangeKind] field value low high type

/-- The type of the problems with a value out of range. -/
def rangeType : Datum := .ofString "field-out-of-range"

def invalidMonth (value : Datum) : Problem :=
  notInRange ["InvalidMonthError", rangeKind] (.ofString ListPart.month.name) value (.int 1)
    (.int 12) (.ofString "invalid-month")

def invalidEnd (value : Datum) : Problem :=
  ofValue [] (.ofString ("Invalid until: " ++ value.shownQuoted ++ ", expected a datetime"))
    (.ofString "invalid-until") (.ofString Part.ends.name) value []

/-- A rule whose values make sense one by one, but not together. -/
def ruleRefused (detail code field value : Datum) : Problem :=
  (ofValue ["RuleInvalidError"] (.ofString ("Invalid rrule: " ++ detail.shown))
    (.ofString "rule-invalid") field value
    (if code.truthy then [("code".toList, code)] else [])).withMembers [("code".toList, code)]

end Problem

/-- The objection in the form in which callers receive it. -/
def Objection.problem : Objection → Problem
  | .invalidStart value => Problem.invalidStart value
  | .invalidFrequency value => Problem.invalidFrequency value
  | .invalidInterval value => Problem.invalidInterval value
  | .invalidCount value => Problem.invalidCount value
  | .invalidWeekStart value => Problem.invalidWeekStart value
  | .invalidMonth value => Problem.invalidMonth value
  | .invalidWeekday value => Problem.invalidWeekday value
  | .outOfRange part value low high =>
    Problem.outOfRange (.ofString part.name) value (.int low) (.int high) Problem.rangeType
  | .invalidEnd value => Problem.invalidEnd value
  | .refused diagnostic =>
    Problem.ruleRefused (.ofString diagnostic.message) (.ofString diagnostic.code)
      (.ofString diagnostic.part.name) diagnostic.value

end Recurrence
