import Recurrence.Datum.Display
import Recurrence.Problem.Basic
import Recurrence.Rule.Reader

namespace Recurrence

namespace Problem

/-- A value in single quotes, as it stands. -/
def inQuotes (d : Datum) : String := "'" ++ d.shown ++ "'"

def tooLong (length limit : Datum) : Problem :=
  (ofText ["InputTooLongError"]
    (.ofString ("RRULE text is " ++ length.shown ++ " characters long, limit is " ++ limit.shown))
    (.ofString "input-too-long") .none .none
    [("length".toList, length), ("limit".toList, limit)]).withMembers
    [("length".toList, length), ("limit".toList, limit)]

def malformedSegment (segment : Datum) : Problem :=
  ofText ["MalformedSegmentError"]
    (.ofString ("Malformed segment " ++ inQuotes segment ++ ", expected KEY=VALUE"))
    (.ofString "malformed-segment") .none segment []

def duplicateKey (key : Datum) : Problem :=
  ofText ["DuplicateKeyError"] (.ofString ("Key " ++ key.shown ++ " appears more than once"))
    (.ofString "duplicate-key") key .none []

def unknownKey (key : Datum) : Problem :=
  ofText ["UnknownKeyError"] (.ofString ("Unknown key " ++ inQuotes key))
    (.ofString "unknown-key") key .none []

/-- A problem with the piece of text under the key of a part. -/
def underKey (kind : String) (part : Part) (type detail : String) (token : Datum) : Problem :=
  ofText [kind] (.ofString detail) (.ofString type) (.str part.key) token []

def missingFrequency : Problem :=
  underKey "MissingFrequencyError" .frequency "missing-frequency" "RRULE must have a FREQ part"
    .none

def invalidFrequencyText (token : Datum) : Problem :=
  underKey "InvalidFrequencyError" .frequency "invalid-frequency"
    ("Invalid frequency " ++ inQuotes token) token

def invalidIntervalText (token : Datum) : Problem :=
  underKey "InvalidIntervalError" .interval "invalid-interval"
    ("Invalid interval " ++ inQuotes token ++ ", expected an integer from 1 to 65535") token

def invalidCountText (token : Datum) : Problem :=
  underKey "InvalidCountError" .count "invalid-count"
    ("Invalid count " ++ inQuotes token ++ ", expected a non-negative integer") token

def invalidEndText (token : Datum) : Problem :=
  underKey "InvalidUntilError" .ends "invalid-until"
    ("Invalid until timestamp " ++ inQuotes token) token

def invalidWeekStartText (token : Datum) : Problem :=
  underKey "InvalidWeekStartError" .weekStart "invalid-week-start"
    ("Invalid week start " ++ inQuotes token) token

def invalidWeekdayText (token : Datum) : Problem :=
  underKey "InvalidWeekdayError" (.list .weekday) "invalid-weekday"
    ("Invalid weekday " ++ inQuotes token) token

def invalidNumber (key token : Datum) : Problem :=
  ofText ["InvalidFieldValueError"]
    (.ofString ("Invalid value " ++ inQuotes token ++ " for " ++ key.shown))
    (.ofString "invalid-field-value") key token []

def tooManyValues (key size limit : Datum) : Problem :=
  (ofText ["TooManyValuesError"]
    (.ofString (key.shown ++ " lists " ++ size.shown ++ " values, limit is " ++ limit.shown))
    (.ofString "too-many-values") key .none
    [("size".toList, size), ("limit".toList, limit)]).withMembers
    [("size".toList, size), ("limit".toList, limit)]

end Problem

/-- The error in the form in which callers receive it. -/
def ReadError.problem : ReadError → Problem
  | .tooLong length limit => Problem.tooLong (.int length) (.int limit)
  | .malformedSegment segment => Problem.malformedSegment (.str segment)
  | .duplicateKey part => Problem.duplicateKey (.str part.key)
  | .unknownKey key => Problem.unknownKey (.str key)
  | .missingFrequency => Problem.missingFrequency
  | .invalidFrequency token => Problem.invalidFrequencyText (.str token)
  | .invalidInterval token => Problem.invalidIntervalText (.str token)
  | .invalidCount token => Problem.invalidCountText (.str token)
  | .invalidEnd token => Problem.invalidEndText (.str token)
  | .invalidWeekStart token => Problem.invalidWeekStartText (.str token)
  | .invalidWeekday token => Problem.invalidWeekdayText (.str token)
  | .invalidValue part token => Problem.invalidNumber (.str part.key) (.str token)
  | .tooManyValues part size limit =>
    Problem.tooManyValues (.str part.key) (.int size) (.int limit)

end Recurrence
