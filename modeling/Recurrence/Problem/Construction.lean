import Recurrence.Arguments
import Recurrence.Problem.Reading
import Recurrence.Problem.Validation

namespace Recurrence.Problem

/-- Further information: a mapping, or a value that counts as false for none. -/
def readExtra (d : Datum) : Except Fault Entries :=
  match d with
  | .dict entries => .ok entries
  | _ => if d.truthy then .error .wrongKind else .ok []

/-- A kind of problem that can be made of arguments. -/
structure Maker where
  parameters : List Parameter
  make : Entries → Except Fault Problem

/-- A kind of problem that is made of the values of its parameters. -/
def Maker.simple (names : List String) (make : Entries → Problem) : Maker :=
  ⟨names.map Parameter.required, fun entries => .ok (make entries)⟩

/-- The kinds of problems by their names. -/
def makers : List (String × Maker) := [
  (root, {
    parameters := .required "detail" :: ["type", "title", "extra"].map (Parameter.optional · .none)
    make := fun a => do
      return general (a.get "detail") (a.get "type") (a.get "title")
        (← readExtra (a.get "extra")) }),
  ("ParseError", {
    parameters := .required "detail" :: ["key", "token", "type", "extra"].map Parameter.named
    make := fun a => do
      return ofText [] (a.get "detail") (a.get "type") (a.get "key") (a.get "token")
        (← readExtra (a.get "extra")) }),
  ("InputTooLongError", .simple ["length", "limit"] fun a =>
    tooLong (a.get "length") (a.get "limit")),
  ("MalformedSegmentError", .simple ["segment"] fun a => malformedSegment (a.get "segment")),
  ("DuplicateKeyError", .simple ["key"] fun a => duplicateKey (a.get "key")),
  ("UnknownKeyError", .simple ["key"] fun a => unknownKey (a.get "key")),
  ("MissingFrequencyError", .simple [] fun _ => missingFrequency),
  ("InvalidFrequencyError", .simple ["token"] fun a => invalidFrequencyText (a.get "token")),
  ("InvalidIntervalError", .simple ["token"] fun a => invalidIntervalText (a.get "token")),
  ("InvalidCountError", .simple ["token"] fun a => invalidCountText (a.get "token")),
  ("InvalidUntilError", .simple ["token"] fun a => invalidEndText (a.get "token")),
  ("InvalidWeekStartError", .simple ["token"] fun a => invalidWeekStartText (a.get "token")),
  ("InvalidWeekdayError", .simple ["token"] fun a => invalidWeekdayText (a.get "token")),
  ("InvalidFieldValueError", .simple ["key", "token"] fun a =>
    invalidNumber (a.get "key") (a.get "token")),
  ("TooManyValuesError", .simple ["key", "size", "limit"] fun a =>
    tooManyValues (a.get "key") (a.get "size") (a.get "limit")),
  ("ValidationError", {
    parameters := .required "detail" :: ["field", "value", "type", "extra"].map Parameter.named
    make := fun a => do
      return ofValue [] (a.get "detail") (a.get "type") (a.get "field") (a.get "value")
        (← readExtra (a.get "extra")) }),
  ("InvalidStartError", .simple ["value"] fun a => invalidStart (a.get "value")),
  ("InvalidFrequencyValueError", .simple ["value"] fun a => invalidFrequency (a.get "value")),
  ("InvalidIntervalValueError", .simple ["value"] fun a => invalidInterval (a.get "value")),
  ("InvalidCountValueError", .simple ["value"] fun a => invalidCount (a.get "value")),
  ("InvalidWeekStartValueError", .simple ["value"] fun a => invalidWeekStart (a.get "value")),
  ("InvalidWeekdayCodeError", .simple ["code"] fun a => invalidWeekday (a.get "code")),
  ("FieldRangeError", {
    parameters := ["field", "value", "low", "high"].map Parameter.required ++
      [.optional "type" rangeType]
    make := fun a => .ok (outOfRange (a.get "field") (a.get "value") (a.get "low") (a.get "high")
      (a.get "type")) }),
  ("InvalidMonthError", .simple ["value"] fun a => invalidMonth (a.get "value")),
  ("RuleInvalidError", {
    parameters := .required "detail" :: ["code", "field", "value"].map Parameter.named
    make := fun a => .ok (ruleRefused (a.get "detail") (a.get "code") (a.get "field")
      (a.get "value")) })]

/-- Makes a problem of the named kind from arguments given by place and by name. -/
def ofArguments (kind : String) (values : List Datum) (given : Entries) :
    Except Fault Problem :=
  match makers.lookup kind with
  | none => .error .noSuchMember
  | some maker => do maker.make (← Parameter.bind maker.parameters values given)

end Recurrence.Problem
