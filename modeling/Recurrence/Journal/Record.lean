import Recurrence.Journal.Level
import Recurrence.Problem.Reading
import Recurrence.Problem.Validation
import Recurrence.Rule.Printer
import Recurrence.Text.Basic

namespace Recurrence.Journal

/-- An entry of a journal: its rank, who wrote it, what it says, and what it is
about. -/
structure Record where
  rank : Int
  writer : Text
  message : Text
  extra : Entries

namespace Record

/-- The names of the values that every line begins with. -/
def levelName : Text := "level".toList
def writerName : Text := "logger".toList
def messageName : Text := "message".toList
def timeName : Text := "timestamp".toList

/-- The members that every entry has from the start. -/
def memberNames : List Text :=
  ["name", "msg", "args", "levelname", "levelno", "pathname", "filename", "module", "exc_info",
    "exc_text", "stack_info", "lineno", "funcName", "created", "msecs", "relativeCreated",
    "thread", "threadName", "processName", "process"].map String.toList

/-- The members that a line gives without being asked for them. -/
def free (members : Entries) : Entries :=
  members.filter fun entry =>
    !(memberNames ++ [messageName, "taskName".toList]).contains entry.1

/-- Whether further members of an entry may have the name. -/
def isTaken (name : Text) : Bool := (memberNames ++ [messageName, "asctime".toList]).contains name

/-- The values on the line of a record apart from the time. -/
def values (record : Record) : Entries :=
  let shown : Entries :=
    [(levelName, .str (Level.nameOf record.rank)), (writerName, .str record.writer),
      (messageName, .str record.message)]
  shown.complete ((free record.extra).filter fun entry => entry.1 != timeName)

end Record

/-- What the library writes into its journal. -/
inductive Event where
  | ruleRead (text : Text) (rule : Rule)
  | ruleNotRead (error : ReadError)
  | ruleNotValid (objection : Objection)
  /-- Options for the journal itself that nothing uses. -/
  | optionsNotUsed (names : List Text)

namespace Event

/-- What a problem says of itself in the journal. -/
def ofProblem (writer message operation : String) (p : Problem) : Record where
  rank := Level.debug.number
  writer := writer.toList
  message := message.toList
  extra :=
    (Entries.overlay [("error_type".toList, p.type)] p.extra).put "operation".toList
      (.ofString operation)

/-- The entry that an event makes in the journal. -/
def record : Event → Record
  | ruleRead text rule => {
      rank := Level.debug.number
      writer := "rrule_codec.rules.codec".toList
      message := "codec.parse(".toList ++ Text.quoted text ++ ") -> ".toList ++
        (Datum.dict rule.entries).quoted
      extra := [] }
  | ruleNotRead error =>
    ofProblem "rrule_codec.rules.codec" "RRULE rejected" "codec.parse" error.problem
  | ruleNotValid objection =>
    ofProblem "rrule_codec.rules.validator" "Rule failed validation" "validator.validate"
      objection.problem
  | optionsNotUsed names => {
      rank := Level.debug.number
      writer := "rrule_codec.infra.logging.config".toList
      message := "Unused logging kwargs supplied: ".toList ++
        Text.join ", ".toList (Text.inOrder names)
      extra := [] }

end Event

end Recurrence.Journal
