import Recurrence.Text.Basic

namespace Recurrence

/-- What is wrong with a value that is taken in. -/
inductive ComplaintKind where
  | intType | intParsing | intFromFloat | intParsingSize | finiteNumber
  | greaterThanEqual | lessThanEqual
  | boolType | boolParsing
  | stringType | stringTooLong
  | literalError
  | listType | tupleType | tooLong
  | datetimeType | datetimeParsing | datetimeFromDateParsing
  | missing | extraForbidden | modelType | frozenInstance
  /-- A value of the right shape that does not mean anything, and why. -/
  | valueError (reason : String)
  deriving DecidableEq, Repr

namespace ComplaintKind

/-- The name of the kind for machines. -/
def name : ComplaintKind → String
  | intType => "int_type"
  | intParsing => "int_parsing"
  | intFromFloat => "int_from_float"
  | intParsingSize => "int_parsing_size"
  | finiteNumber => "finite_number"
  | greaterThanEqual => "greater_than_equal"
  | lessThanEqual => "less_than_equal"
  | boolType => "bool_type"
  | boolParsing => "bool_parsing"
  | stringType => "string_type"
  | stringTooLong => "string_too_long"
  | literalError => "literal_error"
  | listType => "list_type"
  | tupleType => "tuple_type"
  | tooLong => "too_long"
  | datetimeType => "datetime_type"
  | datetimeParsing => "datetime_parsing"
  | datetimeFromDateParsing => "datetime_from_date_parsing"
  | missing => "missing"
  | extraForbidden => "extra_forbidden"
  | modelType => "model_type"
  | frozenInstance => "frozen_instance"
  | valueError _ => "value_error"

/-- The message of the kind, where it has one of its own. -/
def message? : ComplaintKind → Option String
  | valueError reason => some ("Value error, " ++ reason)
  | _ => none

end ComplaintKind

/-- A complaint about the value at a place: the names and indices that lead to
it, the outermost first. -/
structure Complaint where
  place : List Text
  kind : ComplaintKind
  deriving DecidableEq, Repr

/-- The outcome of taking in a value: the value, or all complaints about it. -/
abbrev Intake (α : Type) := Except (List Complaint) α

namespace Intake

/-- A single complaint about the value itself. -/
def refuse {α : Type} (kind : ComplaintKind) : Intake α := .error [⟨[], kind⟩]

/-- Takes in what lies at a step inwards. -/
def within {α : Type} (step : Text) : Intake α → Intake α
  | .ok value => .ok value
  | .error complaints =>
    .error (complaints.map fun complaint => { complaint with place := step :: complaint.place })

/-- Joins two intakes. The complaints about both are kept. -/
def both {α β γ : Type} (f : α → β → γ) : Intake α → Intake β → Intake γ
  | .ok a, .ok b => .ok (f a b)
  | .error complaints, .ok _ => .error complaints
  | .ok _, .error complaints => .error complaints
  | .error complaints, .error others => .error (complaints ++ others)

/-- Takes in one value more for a function. -/
def take {α β : Type} (f : Intake (α → β)) (a : Intake α) : Intake β :=
  both (fun g x => g x) f a

/-- Takes in every item of a list, with all complaints. -/
def all {α : Type} : List (Intake α) → Intake (List α)
  | [] => .ok []
  | a :: rest => both List.cons a (all rest)

/-- Checks a value further once it is taken in. -/
def andThen {α β : Type} (a : Intake α) (f : α → Intake β) : Intake β := a.bind f

end Intake

end Recurrence
