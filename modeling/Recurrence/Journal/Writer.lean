import Recurrence.Journal.Message
import Recurrence.Journal.Record

namespace Recurrence.Journal

/-- One who writes into the journal. -/
structure Writer where
  name : Text
  /-- The least rank that is written, or zero for the common one. -/
  threshold : Int := 0
  /-- What the writer adds to all its records. -/
  context : Entries := []

namespace Writer

/-- The least rank that is written where a writer does not say. -/
def commonThreshold : Int := Level.warning.number

/-- A writer with a context, in which its own name cannot be. -/
def make (name : Text) (threshold : Datum) (context : Entries) : Except Fault Writer := do
  if (context.lookup "name".toList).isSome then throw .wrongKind
  return { name, threshold := ← Level.read threshold, context }

/-- Whether records of the rank are written. No threshold lets ranks pass that are
not positive. -/
def lets (writer : Writer) (rank : Int) : Bool :=
  let threshold := if writer.threshold = 0 then commonThreshold else writer.threshold
  decide (0 < rank) && decide (threshold ≤ rank)

/-- Writes a message. Nothing is computed for a rank that is not written. Members
given with the message count before those of the context, and none may have a name
that every entry has. -/
def log (writer : Writer) (rank : Datum) (content : Content) (values : List Content)
    (extra : Entries) : Telling (Option Record) := do
  match rank.asIntOrBool? with
  | none => throw .wrongKind
  | some rank =>
    if writer.lets rank then
      let content ← content.settle
      let values ← values.mapM Content.settle
      let extra := Entries.overlay writer.context extra
      if extra.any fun entry => Record.isTaken entry.1 then throw .missingKey
      let filling := if values.isEmpty then none else some (Filling.ofValues values)
      return some { rank, writer := writer.name, message := ← message content filling, extra }
    else return none

end Writer

end Recurrence.Journal
