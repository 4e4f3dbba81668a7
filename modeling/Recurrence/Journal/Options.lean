import Recurrence.Datum
import Recurrence.Journal.Level

namespace Recurrence.Journal

/-- How a program wants its journal to be written. -/
structure Options where
  /-- The name of the service, which every line in the structured form carries. -/
  serviceName : Text := "rrule-codec".toList
  level : Level := .info
  /-- Whether lines are written in the structured form. -/
  json : Bool := true
  console : Bool := true
  process : Bool := false
  thread : Bool := false
  captureWarnings : Bool := true
  deriving DecidableEq, Repr

namespace Options

/-- The options apart from the level, as values. -/
def common (o : Options) : Entries :=
  [("service_name".toList, .str o.serviceName), ("json_logs".toList, .bool o.json),
    ("console_enabled".toList, .bool o.console),
    ("include_process_info".toList, .bool o.process),
    ("include_thread_info".toList, .bool o.thread),
    ("capture_warnings".toList, .bool o.captureWarnings)]

/-- The options as values. -/
def entries (o : Options) : Entries := ("level".toList, .ofString o.level.name) :: o.common

/-- The options as arguments for the set-up of a journal. -/
def arguments (o : Options) : Entries :=
  o.common ++ [("log_level".toList, .ofString o.level.name)]

end Options

end Recurrence.Journal
