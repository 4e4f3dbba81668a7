import Recurrence.Journal.Line
import Recurrence.Journal.Writer
import Recurrence.Session.Basic

namespace Recurrence

namespace Journal

/-- The layout of lines in the plain form. -/
def plainLayout : String := "%(asctime)s %(levelname)-8s %(name)s: %(message)s"

/-- The name of the level in a set-up, among its parameters. -/
def levelParameter : String := "log_level"

/-- The parameters of a set-up and what stands for them. -/
def defaults : Entries :=
  [(levelParameter.toList, .ofString Level.info.name), ("json_logs".toList, .bool true),
    ("console_enabled".toList, .bool true), ("service_name".toList, .none),
    ("include_process_info".toList, .bool false), ("include_thread_info".toList, .bool false)]

/-- The values that all lines of a service have. A service without a name has none. -/
def fixedValues (service : Datum) : Option Entries :=
  if service.truthy then some [("service".toList, service)] else none

/-- A set-up written out in full, with the names that a journal is set up by. -/
def description (values : Entries) : Datum :=
  let level := values.get levelParameter
  let handlers : Entries :=
    if (values.get "console_enabled").truthy then
      [("console".toList, .dict [
        ("class".toList, .ofString "logging.StreamHandler"),
        ("formatter".toList,
          .ofString (if (values.get "json_logs").truthy then "json" else "text")),
        ("level".toList, level),
        ("stream".toList, .ofString "ext://sys.stderr")])]
    else [("null".toList, .dict [("class".toList, .ofString "logging.NullHandler")])]
  .dict [
    ("version".toList, .int 1),
    ("disable_existing_loggers".toList, .bool false),
    ("formatters".toList, .dict [
      ("json".toList, .dict [
        ("()".toList, .ofString "rrule_codec.infra.logging.formatters.JSONFormatter"),
        ("static".toList, ((fixedValues (values.get "service_name")).map Datum.dict).getD .none),
        ("include_process_info".toList, values.get "include_process_info"),
        ("include_thread_info".toList, values.get "include_thread_info")]),
      ("text".toList, .dict [("format".toList, .ofString plainLayout)])]),
    ("handlers".toList, .dict handlers),
    ("root".toList, .dict [("level".toList, level),
      ("handlers".toList, .list (handlers.map fun entry => .str entry.1))])]

/-- A set-up written out, from values for all of its parameters. -/
def describe (given : Entries) : Except Fault Datum := do
  let parameters := defaults.map fun entry => { name := entry.1, byPlace := false }
  return description (← Parameter.bind parameters [] given)

/-- What becomes of the records that are written. -/
inductive Handler where
  | silent
  /-- Records from the rank on go to the console, in the structured form if there is one. -/
  | console (rank : Int) (form : Option Form)

/-- How a journal is set up. -/
structure Setup where
  rank : Int := Writer.commonThreshold
  handlers : List Handler := []
  /-- Whether warnings become records. -/
  takesWarnings : Bool := false
  initialized : Bool := false

namespace Setup

/-- The rank that a level stands for, and nothing where the level is left open. -/
def readLevel : Datum → Except Fault (Option Int)
  | .none => .ok none
  | level =>
    match Level.read level with
    | .ok rank => .ok (some rank)
    | .error _ => .error .badValue

/-- Sets a journal up. A level that there is not leaves everything as it was. -/
def configure (setup : Setup) (given : Entries) : Except Fault Setup := do
  let values := defaults.overlay given
  let rank ← readLevel (values.get levelParameter)
  let form : Form := {
    fixed := (fixedValues (values.get "service_name")).getD []
    process := values.get "include_process_info"
    thread := values.get "include_thread_info" }
  let handler :=
    if (values.get "console_enabled").truthy then
      .console (rank.getD 0) (if (values.get "json_logs").truthy then some form else none)
    else .silent
  let takesWarnings := ((given.lookup "capture_warnings".toList).getD (.bool true)).truthy
  return { setup with rank := rank.getD setup.rank, handlers := [handler], takesWarnings }

/-- The given names that no parameter of a set-up has. -/
def unused (given : Entries) : List Text :=
  (given.map Prod.fst).filter fun name =>
    (defaults.lookup name).isNone && name != "capture_warnings".toList

end Setup

end Journal

namespace Work

open Journal

/-- Sets a journal up, and notes the options that nothing uses. -/
def configure (setup : Setup) (given : Entries) : Work Setup := do
  let done ← lift Failure.fault (setup.configure given)
  unless (Setup.unused given).isEmpty do note (.optionsNotUsed (Setup.unused given))
  return done

/-- Sets a journal up once, from the given options or those of the session. What
overrides them cannot be the options themselves. -/
def setUp (setup : Setup) (given : Option Options) (force : Bool) (overrides : Entries) :
    Work Setup := do
  if overrides.any fun entry => ["force".toList, "log_settings".toList].contains entry.1 then
    throw (.fault .wrongKind)
  if setup.initialized && !force then return setup
  let options ← match given with
    | some given => pure given
    | none => options
  let done ← configure setup (options.arguments.overlay overrides)
  return { done with initialized := true }

end Work

end Recurrence
