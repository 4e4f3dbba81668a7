import Recurrence.Fault
import Recurrence.Intake.Moment

namespace Recurrence.Intake

/-- Takes in the value under a name, which must be there. -/
def field {α : Type} (entries : Entries) (name : String) (take : Datum → Intake α) :
    Intake α :=
  within name.toList
    (match entries.lookup name.toList with
      | some value => take value
      | none => refuse .missing)

/-- Takes in the value under a name, if it is there. -/
def fieldOr {α : Type} (entries : Entries) (name : String) (fallback : α)
    (take : Datum → Intake α) : Intake α :=
  match entries.lookup name.toList with
  | some value => within name.toList (take value)
  | none => .ok fallback

/-- Complains about every name that is not one of the known ones. -/
def onlyKnown (names : List Text) (entries : Entries) : Intake Unit :=
  let complaints := entries.filterMap fun entry =>
    if names.contains entry.1 then none else some ⟨[entry.1], .extraForbidden⟩
  if complaints.isEmpty then .ok () else .error complaints

/-- Takes in a mapping. -/
def mapping (d : Datum) : Intake Entries :=
  match d with
  | .dict entries => .ok entries
  | _ => refuse .modelType

/-- A meaning of a value, or the reason why it has none. -/
def meaning {α : Type} : Except Fault α → Intake α
  | .ok a => .ok a
  | .error fault => refuse (.valueError (fault.message?.getD ""))

end Recurrence.Intake
