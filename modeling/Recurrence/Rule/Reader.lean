import Recurrence.Rule.Printer
import Recurrence.Rule.Setting
import Recurrence.Text.Numeral

namespace Recurrence

/-- Bounds on the work that one call may do, and the form in which the end of a
rule is written. -/
structure Limits where
  /-- The longest rule text that is read. -/
  maxTextLength : Nat := 4096
  /-- The most values that one list part of a text may have. -/
  maxListItems : Nat := 1000
  /-- Whether a text may begin with the name of the property that holds it. -/
  acceptMark : Bool := true
  endForm : EndForm := .extended
  /-- The most occurrences given for a rule that nothing else bounds. -/
  maxOccurrences : Nat := 1000
  deriving DecidableEq, Repr

/-- Why a text is no rule. -/
inductive ReadError where
  | tooLong (length limit : Nat)
  /-- A segment without an equals sign. -/
  | malformedSegment (segment : Text)
  | duplicateKey (part : Part)
  | unknownKey (key : Text)
  | missingFrequency
  | invalidFrequency (token : Text)
  | invalidInterval (token : Text)
  | invalidCount (token : Text)
  | invalidEnd (token : Text)
  | invalidWeekStart (token : Text)
  | invalidWeekday (token : Text)
  | invalidValue (part : ListPart) (token : Text)
  | tooManyValues (part : ListPart) (size limit : Nat)
  deriving DecidableEq, Repr

/-- The integers that a list part can store, which are more than those that make
sense in it. A part that can store negative ones also takes a sign. -/
def ListPart.storage : ListPart → Int × Int
  | .setPosition => (-2147483648, 2147483647)
  | .monthDay | .weekNumber => (-128, 127)
  | .yearDay => (-32768, 32767)
  | .month | .hour | .minute | .second => (0, 255)
  | .weekday => (-32768, 32767)

/-- The most digits that a number in a rule text may have. -/
def Rule.mostDigits : Nat := 10

/-- The most digits that the ordinal before a weekday may have. -/
def Rule.mostOrdinalDigits : Nat := 3

/-- The greatest interval and the greatest count that a text can give. -/
def Rule.maxInterval : Nat := 65535
def Rule.maxCount : Nat := 4294967295

/-- Reads a weekday code, alone or after an ordinal that is not zero. -/
def Rule.readOccurrence? (token : Text) : Option Datum :=
  let t := Text.upper token
  let ordinal := t.take (t.length - 2)
  match Weekday.ofCode? (t.drop (t.length - 2)) with
  | none => none
  | some day =>
    if ordinal.isEmpty then some (.every (.weekday day))
    else
      match Text.int? mostOrdinalDigits ordinal with
      | some n =>
        let (low, high) := ListPart.weekday.storage
        if n ≠ 0 ∧ low ≤ n ∧ n ≤ high then some (.nth (.int n) (.weekday day)) else none
      | none => none

/-- Reads a number that the part can store. -/
def Rule.readNumber? (part : ListPart) (token : Text) : Option Datum :=
  let (low, high) := part.storage
  let number :=
    if low < 0 then Text.int? mostDigits token
    else (Text.nat? mostDigits token).map Int.ofNat
  match number with
  | some n => if low ≤ n ∧ n ≤ high then some (.int n) else none
  | none => none

namespace Rule

/-- Reads one item of a list part. -/
def readItem (part : ListPart) (token : Text) : Except ReadError Datum :=
  match part with
  | .weekday =>
    match readOccurrence? token with
    | some occurrence => .ok occurrence
    | none => .error (.invalidWeekday token)
  | part =>
    match readNumber? part token with
    | some number => .ok number
    | none => .error (.invalidValue part token)

/-- Reads items one after the other, up to the first that cannot be read. -/
def readItems (part : ListPart) : List Text → Except ReadError (List Datum)
  | [] => .ok []
  | token :: tokens => do
    let item ← readItem part token
    let items ← readItems part tokens
    return item :: items

/-- Reads a list part. The items are counted before any of them is read. -/
def readList (limits : Limits) (part : ListPart) (value : Text) :
    Except ReadError (List Datum) :=
  let tokens := (Text.split ',' value).map Text.trim
  if tokens.length > limits.maxListItems then
    .error (.tooManyValues part tokens.length limits.maxListItems)
  else readItems part tokens

/-- Reads the value of one part. -/
def readValue (limits : Limits) (part : Part) (value : Text) : Except ReadError Setting :=
  match part with
  | .frequency =>
    match Frequency.ofName? (Text.upper (Text.trim value)) with
    | some f => .ok (.frequency f)
    | none => .error (.invalidFrequency value)
  | .interval =>
    match Text.nat? mostDigits value with
    | some n =>
      if 1 ≤ n ∧ n ≤ maxInterval then .ok (.interval n) else .error (.invalidInterval value)
    | none => .error (.invalidInterval value)
  | .count =>
    match Text.nat? mostDigits value with
    | some n => if n ≤ maxCount then .ok (.count n) else .error (.invalidCount value)
    | none => .error (.invalidCount value)
  | .ends =>
    match Timestamp.read value with
    | .ok t =>
      match found : t.normalize? with
      | some u => .ok (.ends u (Timestamp.normalize?_isNormal found))
      | none => .error (.invalidEnd value)
    | .error _ => .error (.invalidEnd value)
  | .weekStart =>
    match Weekday.ofCode? (Text.upper value) with
    | some day => .ok (.weekStart day)
    | none => .error (.invalidWeekStart value)
  | .list part => (readList limits part value).map (Setting.list part)

/-- Reads the values of the parts one after the other, up to the first that
cannot be read. -/
def readValues (limits : Limits) : List (Part × Text) → Except ReadError (List Setting)
  | [] => .ok []
  | (part, value) :: rest => do
    let setting ← readValue limits part value
    let settings ← readValues limits rest
    return setting :: settings

/-- Divides the segments into known keys, each at most once, and their trimmed
values. Blank segments are passed over. -/
def readSegments (seen : List Part) : List Text → Except ReadError (List (Part × Text))
  | [] => .ok []
  | segment :: rest =>
    if Text.isBlankText segment then readSegments seen rest
    else
      match Text.splitFirst? '=' segment with
      | none => .error (.malformedSegment segment)
      | some (key, value) =>
        match Part.ofKey? (Text.upper (Text.trim key)) with
        | none => .error (.unknownKey (Text.upper (Text.trim key)))
        | some part =>
          if part ∈ seen then .error (.duplicateKey part)
          else do
            let others ← readSegments (part :: seen) rest
            return (part, Text.trim value) :: others

/-- The name of the property that holds a rule text, with its colon. -/
def mark : Text := ['R', 'R', 'U', 'L', 'E', ':']

/-- The text that holds the segments: trimmed, and without the property name in
front where the limits admit it. -/
def body (limits : Limits) (text : Text) : Text :=
  let t := Text.trim text
  if limits.acceptMark ∧ Text.upper (t.take mark.length) = mark then t.drop mark.length else t

/-- Reads a rule text. All keys are checked before any value is read, and the
first error ends the reading. -/
def read (limits : Limits) (text : Text) : Except ReadError Rule :=
  if text.length > limits.maxTextLength then
    .error (.tooLong text.length limits.maxTextLength)
  else do
    let entries ← readSegments [] (Text.split ';' (body limits text))
    if entries.any fun entry => entry.1 = .frequency then
      let settings ← readValues limits entries
      return ofSettings settings
    else throw .missingFrequency

end Rule

end Recurrence
