import Recurrence.Interchange
import Recurrence.Session.Basic

namespace Recurrence.Work

/-- Reads a rule text and gives it back as it is. An error is reported as a value
that does not fit, with its words. -/
def checkText (d : Datum) : Work Datum :=
  tryCatch (do
    discard (readRule none d)
    return d) fun
    | .reading error => throw (.fault (.refusedText error.problem.detail.shown))
    | failure => throw failure

/-- Checks a rule text, where nothing stands for no rule. -/
def checkOptionalText (d : Datum) : Work Datum :=
  match d with
  | .none => return .none
  | _ => checkText d

/-- The name of the one value of a payload, and the most characters it may have. -/
def payloadName : String := "recurrence_rule"
def payloadLength : Nat := 4096

/-- The complaints that a failed check inside a larger value makes. -/
def complaintsAt (place : String) : Failure → Failure
  | .intake complaints =>
    .intake (complaints.map fun complaint =>
      { complaint with place := place.toList :: complaint.place })
  | .fault cause =>
    match cause.kind, cause.message? with
    | .badValue, some reason => .intake [⟨[place.toList], .valueError reason⟩]
    | _, _ => .fault cause
  | failure => failure

/-- Takes in a payload, which may hold a rule text. Other values are passed over. -/
def takePayload (d : Datum) : Work Datum := do
  let text ← lift Failure.intake ((Intake.mapping d).andThen fun entries =>
    Intake.fieldOr entries payloadName none (Intake.optional (Intake.textUpTo payloadLength)))
  tryCatch (checkOptionalText (text.elim .none Datum.str)) fun failure =>
    throw (complaintsAt payloadName failure)

/-- The exchanged form of the rule that a text gives. -/
def interchangeOf (d : Datum) : Work Interchange := do
  lift Failure.intake (Interchange.ofRule (← readRule none d))

/-- The text of the rule that an exchanged form gives. -/
def interchangeText (form : Interchange) : Work Text := do
  printRule none (← lift Failure.fault form.toRule)

end Recurrence.Work
