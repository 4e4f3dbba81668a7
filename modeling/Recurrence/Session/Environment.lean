import Recurrence.Intake.Fields
import Recurrence.Journal.Options
import Recurrence.Rule.Reader

namespace Recurrence

/-- The variables that settings are taken from, in the order in which they came
to exist. -/
abbrev Environment := List (Text × Text)

namespace Environment

/-- Gives a variable a value. A variable that exists keeps its place. -/
def put (name value : Text) : Environment → Environment
  | [] => [(name, value)]
  | entry :: environment =>
    if entry.1 = name then (name, value) :: environment
    else entry :: put name value environment

/-- Takes a variable away. -/
def remove (name : Text) (environment : Environment) : Environment :=
  environment.filter fun entry => entry.1 != name

/-- A name without regard to the case of its letters. -/
def folded (name : Text) : Text := name.map Char.toLower

/-- The value of the variable that has one of the names, in any case. Of several
spellings of a name the last variable counts. -/
def find? (environment : Environment) : List String → Option Text
  | [] => none
  | name :: names =>
    match environment.reverse.find? fun entry => folded entry.1 = folded name.toList with
    | some entry => some entry.2
    | none => find? environment names

end Environment

/-- Where the value of a setting comes from: an argument with one of the
keywords, or else an environment variable with one of the names. -/
structure SettingSource where
  /-- The name under which complaints are given. -/
  name : String
  keywords : List String
  variableNames : List String

namespace SettingSource

/-- A setting with one name, whose variable has a front part of its own. -/
def plain (front name : String) : SettingSource := ⟨name, [name], [front ++ name]⟩

/-- The argument with one of the keywords, which may be in another case. -/
def argument? (given : Entries) : List String → Option Datum
  | [] => none
  | keyword :: keywords =>
    match given.lookup keyword.toList with
    | some value => some value
    | none =>
      match given.find? fun entry => Environment.folded entry.1 = keyword.toList with
      | some entry => some entry.2
      | none => argument? given keywords

/-- The value of a setting, when there is one. -/
def value? (source : SettingSource) (given : Entries) (environment : Environment) :
    Option Datum :=
  match argument? given source.keywords with
  | some value => some value
  | none => (environment.find? source.variableNames).map Datum.str

/-- The values of all settings that have one. -/
def gather (sources : List SettingSource) (given : Entries) (environment : Environment) :
    Entries :=
  sources.filterMap fun source =>
    (source.value? given environment).map fun value => (source.name.toList, value)

end SettingSource

namespace Limits

/-- The names of the limits. -/
def lengthName : String := "max_input_length"
def itemsName : String := "max_list_items"
def markName : String := "accept_rrule_prefix"
def formName : String := "until_format"
def occurrencesName : String := "max_occurrences"

/-- The two forms of an end by their names. -/
def forms : List (String × EndForm) := [("extended", .extended), ("basic", .basic)]

/-- Where the limits come from. -/
def sources : List SettingSource :=
  [lengthName, itemsName, markName, formName, occurrencesName].map (SettingSource.plain "RRULE_")

/-- The limits given by arguments and, for the rest, by the environment. -/
def load (given : Entries) (environment : Environment) : Intake Limits :=
  let entries := SettingSource.gather sources given environment
  let number (name : String) (fallback : Nat) (low high : Int) : Intake Nat :=
    Intake.fieldOr entries name fallback fun value =>
      (Intake.intIn low (some high) value).map Int.toNat
  let defaults : Limits := {}
  Intake.take (Intake.take (Intake.take (Intake.take (Intake.take (.ok Limits.mk)
    (number lengthName defaults.maxTextLength 16 1048576))
    (number itemsName defaults.maxListItems 1 100000))
    (Intake.fieldOr entries markName defaults.acceptMark Intake.bool))
    (Intake.fieldOr entries formName defaults.endForm (Intake.word forms)))
    (number occurrencesName defaults.maxOccurrences 1 1000000)

/-- The limits as values. -/
def entries (limits : Limits) : Entries :=
  [(lengthName.toList, .int limits.maxTextLength), (itemsName.toList, .int limits.maxListItems),
    (markName.toList, .bool limits.acceptMark),
    (formName.toList, .ofString (match limits.endForm with
      | .extended => "extended"
      | .basic => "basic")),
    (occurrencesName.toList, .int limits.maxOccurrences)]

end Limits

namespace Journal.Options

/-- Where the options come from. The structured form has a short name too. -/
def sources : List SettingSource :=
  ["service_name", "level", "console_enabled", "include_process_info", "include_thread_info",
    "capture_warnings"].map (SettingSource.plain "LOG_") ++
  [⟨"json", ["json", "json_logs"], ["json", "LOG_json_logs"]⟩]

/-- The levels by their names. -/
def levels : List (String × Level) := Level.all.map fun level => (level.name, level)

/-- The options given by arguments and, for the rest, by the environment. -/
def load (given : Entries) (environment : Environment) : Intake Options :=
  let entries := SettingSource.gather sources given environment
  let defaults : Options := {}
  let flag (name : String) (fallback : Bool) : Intake Bool :=
    Intake.fieldOr entries name fallback Intake.bool
  Intake.take (Intake.take (Intake.take (Intake.take (Intake.take (Intake.take (Intake.take
    (.ok Options.mk)
    (Intake.fieldOr entries "service_name" defaults.serviceName Intake.text))
    (Intake.fieldOr entries "level" defaults.level (Intake.word levels)))
    (flag "json" defaults.json))
    (flag "console_enabled" defaults.console))
    (flag "include_process_info" defaults.process))
    (flag "include_thread_info" defaults.thread))
    (flag "capture_warnings" defaults.captureWarnings)

end Journal.Options

end Recurrence
