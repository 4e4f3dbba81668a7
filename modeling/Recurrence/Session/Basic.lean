import Recurrence.Journal.Record
import Recurrence.Schedule.Occurrences
import Recurrence.Rule.Printer
import Recurrence.Rule.Reader
import Recurrence.Session.Environment
import Recurrence.Validation.Basic

namespace Recurrence

/-- Why a piece of work did not succeed. -/
inductive Failure where
  | fault (cause : Fault)
  | reading (error : ReadError)
  | objection (cause : Objection)
  | diagnostic (cause : Diagnostic)
  | intake (complaints : List Complaint)
  deriving DecidableEq

/-- What lasts between pieces of work: the environment, the settings that were
loaded from it, and the journal. -/
structure Session where
  environment : Environment := []
  /-- The limits, once they are loaded. -/
  limits : Option Limits := none
  /-- The options of the journal, once they are loaded. -/
  options : Option Journal.Options := none
  /-- The events so far, the latest first. -/
  events : List Journal.Event := []

/-- Work in a session. What it leaves behind stays when it fails. -/
abbrev Work (α : Type) := ExceptT Failure (StateM Session) α

namespace Failure

/-- A rejected rule is a failure. -/
def ofRejection : Rejection → Failure
  | .fault cause => .fault cause
  | .objection cause => .objection cause

/-- A refused schedule is a failure. -/
def ofRefusal : Refusal → Failure
  | .fault cause => .fault cause
  | .diagnostic cause => .diagnostic cause

end Failure

namespace Work

/-- A step that does not touch the session. -/
def lift {ε α : Type} (wrap : ε → Failure) : Except ε α → Work α
  | .ok a => pure a
  | .error e => throw (wrap e)

/-- Writes an event into the journal. -/
def note (event : Journal.Event) : Work Unit :=
  modify fun session => { session with events := event :: session.events }

/-- The limits of the session, which are loaded from the environment when they
are needed for the first time. A load that fails leaves nothing behind. -/
def limits : Work Limits := do
  match (← get).limits with
  | some limits => return limits
  | none =>
    let loaded ← lift Failure.intake (Limits.load [] (← get).environment)
    modify fun session => { session with limits := some loaded }
    return loaded

/-- The options of the journal, loaded in the same way. -/
def options : Work Journal.Options := do
  match (← get).options with
  | some options => return options
  | none =>
    let loaded ← lift Failure.intake (Journal.Options.load [] (← get).environment)
    modify fun session => { session with options := some loaded }
    return loaded

/-- Forgets the settings that were loaded. -/
def forget : Work Unit := modify fun session => { session with limits := none, options := none }

/-- Gives a variable of the environment a value. Settings that are loaded stay as
they are. -/
def setVariable (name value : Text) : Work Unit :=
  modify fun session => { session with environment := session.environment.put name value }

/-- Takes a variable of the environment away. -/
def unsetVariable (name : Text) : Work Unit :=
  modify fun session => { session with environment := session.environment.remove name }

/-- The given limits, or those of the session. -/
def limitsOr : Option Limits → Work Limits
  | some given => pure given
  | none => limits

/-- The length of a value that has one. -/
def lengthOf? : Datum → Option Nat
  | .list items | .tuple items => some items.length
  | .dict entries => some entries.length
  | _ => none

/-- Reads a rule text, and notes how that went. Of other values the length is
compared with the limit before their kind shows. -/
def readRule (given : Option Limits) (d : Datum) : Work Rule := do
  let limits ← limitsOr given
  match d.asText? with
  | some text =>
    match Rule.read limits text with
    | .ok rule =>
      note (.ruleRead text rule)
      return rule
    | .error error =>
      note (.ruleNotRead error)
      throw (.reading error)
  | none =>
    match lengthOf? d with
    | some length =>
      if length > limits.maxTextLength then
        let error := ReadError.tooLong length limits.maxTextLength
        note (.ruleNotRead error)
        throw (.reading error)
      else throw (.fault .noSuchMember)
    | none => throw (.fault .wrongKind)

/-- The canonical text of a rule. -/
def printRule (given : Option Limits) (r : Rule) : Work Text := do
  return r.print (← limitsOr given).endForm

/-- Validates a rule, and notes an objection. -/
def validate (r : Rule) (start : Datum) : Work Unit := do
  match r.validate start with
  | .ok () => return
  | .error (.objection cause) =>
    note (.ruleNotValid cause)
    throw (.objection cause)
  | .error (.fault cause) => throw (.fault cause)

/-- Whether a rule is valid, where an objection is noted too. -/
def isValid (r : Rule) (start : Datum) : Work Bool :=
  tryCatch (do validate r start; return true) fun
    | .objection _ => return false
    | failure => throw failure

/-- The schedule of a rule. -/
def toSchedule (r : Rule) : Work Schedule := lift Failure.ofRejection r.toSchedule

end Work

end Recurrence
