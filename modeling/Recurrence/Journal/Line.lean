import Recurrence.Arguments
import Recurrence.Calendar.TimestampText
import Recurrence.Datum.Json
import Recurrence.Journal.Message
import Recurrence.Journal.Record

namespace Recurrence.Journal

/-- Who ran when an entry was made: a number and a name. -/
structure Runner where
  number : Int
  name : Text

/-- An entry before it is written: its members, by the names under which the
form of a line asks for them, and the kind and the text of the error it tells of. -/
structure Entry where
  members : Entries
  error : Option (Text × Text) := none

namespace Entry

/-- An entry as it is made, in seconds since the beginning of 1970. A mapping that
is the only value of its message stands for itself. -/
def make (writer : Text) (rank : Int) (message : Datum) (values : List Datum) (created : Decimal)
    (process thread : Runner) : Entry where
  members :=
    [("name".toList, .str writer), ("msg".toList, message),
      ("args".toList, match values with
        | [.dict (entry :: entries)] => .dict (entry :: entries)
        | values => .tuple values),
      ("levelname".toList, .str (Level.nameOf rank)), ("levelno".toList, .int rank),
      ("exc_info".toList, .none), ("exc_text".toList, .none), ("stack_info".toList, .none),
      ("created".toList, .float created), ("thread".toList, .int thread.number),
      ("threadName".toList, .str thread.name), ("processName".toList, .str process.name),
      ("process".toList, .int process.number)]

/-- Gives an entry further members, which may take the place of its own. -/
def extend (entry : Entry) (extra : Entries) : Entry where
  members := entry.members.overlay extra
  error := if (extra.lookup "exc_info".toList).isSome then none else entry.error

/-- The text of the message. -/
def message (entry : Entry) : Except Fault Text :=
  ((Journal.message (.plain (entry.members.get "msg"))
    (Filling.ofDatum? (entry.members.get "args"))).run []).1

/-- The text of the error. One that stands for a missing key shows the key, and one
without a text shows its kind alone. A member in its place must not count as true. -/
def errorText (entry : Entry) : Except Fault (Option Text) :=
  match entry.error with
  | some (kind, text) =>
    let text := if kind = "KeyError".toList then Text.quoted text else text
    .ok (some (if text.isEmpty then kind else kind ++ ": ".toList ++ text))
  | none => if (entry.members.get "exc_info").truthy then .error .wrongKind else .ok none

/-- The text of the stack. -/
def stackText (entry : Entry) : Except Fault (Option Text) :=
  let stack := entry.members.get "stack_info"
  match stack.truthy, stack.asText? with
  | false, _ => .ok none
  | true, some text => .ok (some text)
  | true, none => .error .noSuchMember

end Entry

/-- A time in seconds since 1970 on the UTC clock, cut to the millisecond. -/
def timeText (created : Datum) : Except Fault Text := do
  let micros ← match created with
    | .int n => pure (n * 1000000)
    | .bool b => pure (if b then 1000000 else 0)
    | .float d =>
      match d.millionths?, d with
      | some n, _ => pure n
      | none, .infinite _ => throw .overflow
      | none, _ => throw .badValue
    | _ => throw .wrongKind
  match Timestamp.make? (Timestamp.epoch + micros / 1000000) (micros % 1000000).toNat none with
  | some t =>
    return t.dateText ++ ['T'] ++ t.clockText ++ ['.'] ++ Text.padded 3 (t.micros / 1000) ++ ['Z']
  | none => throw .badValue

/-- A text on one line, where a line break is shown by its escape. -/
def oneLine (t : Text) : Text := t.flatMap fun c => if c = '\n' then ['\\', 'n'] else [c]

/-- What lines in the structured form hold. -/
structure Form where
  /-- The fields that come first, each with the member that it shows. -/
  fields : List (Text × Text) := []
  /-- Values that are the same on all lines. -/
  fixed : Entries := []
  /-- Whether the process is named. -/
  process : Datum := .bool false
  /-- Whether the thread is named. -/
  thread : Datum := .bool false

namespace Form

/-- The fields of a form that has none of its own. -/
def commonFields : List (Text × Text) :=
  [(Record.levelName, "levelname".toList), (Record.writerName, "name".toList),
    (Record.messageName, "message".toList)]

/-- Puts a text under a name, when there is one. -/
def putText (name : String) (text : Option Text) (values : Entries) : Entries :=
  match text with
  | some text => values.put name.toList (.str (oneLine text))
  | none => values

/-- Puts a number and a name in the line, when they are wanted. -/
def putRunner (wanted : Datum) (numberName nameName : String) (number name : Datum)
    (values : Entries) : Entries :=
  if wanted.truthy then (values.put numberName.toList number).put nameName.toList name else values

/-- The values on the line of an entry: the fields of the form, the time, what the
form adds, and then the members that have no place of their own. -/
def values (form : Form) (entry : Entry) : Except Fault Entries := do
  let members := entry.members.put Record.messageName (.str (← entry.message))
  let fields := if form.fields.isEmpty then commonFields else form.fields
  let shown := fields.map fun field => (field.1, (members.lookup field.2).getD .none)
  let time ← timeText (members.get "created")
  let error ← entry.errorText
  let stack ← entry.stackText
  let values := (Entries.overlay [] shown).put Record.timeName (.str time)
  let values := putRunner form.process "process_id" "process_name" (members.get "process")
    (members.get "processName") values
  let values := putRunner form.thread "thread_id" "thread_name" (members.get "thread")
    (members.get "threadName") values
  let values := putText "stack_trace" stack (putText "exception" error values)
  return (values.overlay form.fixed).complete (Record.free members)

/-- The line of an entry. -/
def line (form : Form) (entry : Entry) : Except Fault Text :=
  (form.values entry).map fun values => (Datum.dict values).json

end Form

end Recurrence.Journal
