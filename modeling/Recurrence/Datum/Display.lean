import Recurrence.Calendar.TimestampText
import Recurrence.Datum
import Recurrence.Text.Quoted
import Recurrence.Text.Upper

namespace Recurrence

/-- The parts of a length of time in the display of a clock: days, which may be
negative, and the remaining seconds, each left out when zero. -/
def Timestamp.spanText (seconds : Int) : Text :=
  let days := seconds / 86400
  let rest := (seconds % 86400).toNat
  let dayPart := if days = 0 then [] else ["days=".toList ++ Text.ofInt days]
  let secondPart := if rest = 0 then [] else ["seconds=".toList ++ Text.ofNat rest]
  Text.join ", ".toList (dayPart ++ secondPart)

/-- The display of a timestamp as a list of its parts. Seconds and microseconds
are left out from the back while they are zero. -/
def Timestamp.partsText (t : Timestamp) : Text :=
  let d := t.date
  let clock :=
    if t.micros ≠ 0 then [t.hour, t.minute, t.second, t.micros]
    else if t.second ≠ 0 then [t.hour, t.minute, t.second]
    else [t.hour, t.minute]
  let numbers := ([d.year, d.month, d.day] ++ clock).map Text.ofNat
  let zone := match t.offset with
    | none => []
    | some 0 => ["tzinfo=datetime.timezone.utc".toList]
    | some offset =>
      ["tzinfo=datetime.timezone(datetime.timedelta(".toList ++ spanText offset ++ "))".toList]
  "datetime.datetime(".toList ++ Text.join ", ".toList (numbers ++ zone) ++ ")".toList

namespace Datum

/-- The words that displays are made of. -/
def noneWord : Text := "None".toList
def trueWord : Text := "True".toList
def falseWord : Text := "False".toList
def frequencyWord : Text := "Frequency.".toList
def weekdayWord : Text := "Weekday.".toList
def everyWord : Text := "Every(weekday=".toList
def nthWord : Text := "Nth(ordinal=".toList
def nthDayWord : Text := ", weekday=".toList
def commaWord : Text := ", ".toList
def colonWord : Text := ": ".toList

mutual

/-- The display of a value in diagnostics: texts stand in quotes, so that a
value of another shape with the same text is told apart. -/
def quoted : Datum → Text
  | .none => noneWord
  | .bool b => if b then trueWord else falseWord
  | .int n => Text.ofInt n
  | .float d => d.text
  | .str t => Text.quoted t
  | .list items => '[' :: quotedItems items ++ [']']
  | .tuple [item] => '(' :: quoted item ++ [',', ')']
  | .tuple items => '(' :: quotedItems items ++ [')']
  | .dict entries => '\x7b' :: quotedEntries entries ++ ['\x7d']
  | .frequency f =>
    '<' :: frequencyWord ++ f.name ++ colonWord ++ '\'' :: f.name ++ ['\'', '>']
  | .weekday w => '<' :: weekdayWord ++ w.name ++ colonWord ++ '\'' :: w.code ++ ['\'', '>']
  | .every day => everyWord ++ quoted day ++ [')']
  | .nth ordinal day =>
    nthWord ++ quoted ordinal ++ nthDayWord ++ quoted day ++ [')']
  | .moment t => t.partsText

/-- The displays of the items with commas between them. -/
def quotedItems : List Datum → Text
  | [] => []
  | [item] => quoted item
  | item :: items => quoted item ++ commaWord ++ quotedItems items

/-- The displays of the keys and values with commas between the entries. -/
def quotedEntries : List (Text × Datum) → Text
  | [] => []
  | [(key, value)] => Text.quoted key ++ colonWord ++ quoted value
  | (key, value) :: entries =>
    Text.quoted key ++ colonWord ++ quoted value ++ commaWord ++ quotedEntries entries

end

/-- The token of a value given its plain text: the name or code of a frequency
or a weekday, and otherwise the plain text in capitals. -/
def tokenOf (plain : Text) : Datum → Text
  | .frequency f => f.name
  | .weekday w => w.code
  | _ => Text.upper plain

/-- The plain text of a value: a text stands for itself, a weekday occurrence
for its code with the ordinal in front, and the rest as they are displayed. -/
def text : Datum → Text
  | .str t => t
  | .frequency f => frequencyWord ++ f.name
  | .weekday w => weekdayWord ++ w.name
  | .every day => tokenOf day.text day
  | .nth ordinal day => ordinal.text ++ tokenOf day.text day
  | .moment t => t.textWith ' '
  | d => d.quoted

/-- The form in which rule texts and exported rules name a frequency or a weekday. -/
def token (d : Datum) : Text := tokenOf d.text d

@[simp] theorem token_frequency (f : Frequency) : (frequency f).token = f.name := by
  simp only [token, tokenOf]

@[simp] theorem token_weekday (w : Weekday) : (weekday w).token = w.code := by
  simp only [token, tokenOf]

@[simp] theorem token_str (t : Text) : (str t).token = Text.upper t := by
  simp [token, tokenOf, text]

/-- The plain text of a value for use inside a message. -/
def shown (d : Datum) : String := String.ofList d.text

/-- The display of a value for use inside a message. -/
def shownQuoted (d : Datum) : String := String.ofList d.quoted

end Datum

end Recurrence
