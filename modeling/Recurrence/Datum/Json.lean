import Recurrence.Datum.Display

namespace Recurrence

/-- A number as JSON gives it. The values that are no numbers have words. -/
def Decimal.json : Decimal → Text
  | .notANumber => "NaN".toList
  | .infinite negative => if negative then "-Infinity".toList else "Infinity".toList
  | d => d.text

namespace Text

/-- A character inside of a JSON string. Only what must be escaped is escaped. -/
def jsonChar (c : Char) : Text :=
  if c = '"' ∨ c = '\\' then ['\\', c]
  else if c = '\n' then ['\\', 'n']
  else if c = '\r' then ['\\', 'r']
  else if c = '\t' then ['\\', 't']
  else if c.toNat = 0x8 then ['\\', 'b']
  else if c.toNat = 0xC then ['\\', 'f']
  else if c.toNat < 0x20 then '\\' :: 'u' :: hex 4 c.toNat
  else [c]

/-- A text as a JSON string. -/
def json (t : Text) : Text := '"' :: t.flatMap jsonChar ++ ['"']

end Text

namespace Datum

/-- The words of JSON. -/
def jsonNull : Text := "null".toList
def jsonTrue : Text := "true".toList
def jsonFalse : Text := "false".toList

mutual

/-- A value as JSON on one line. Frequencies and weekdays are strings, and what
JSON has no form for is the string of its plain text. -/
def json : Datum → Text
  | .none => jsonNull
  | .bool b => if b then jsonTrue else jsonFalse
  | .int n => Text.ofInt n
  | .float d => d.json
  | .str t => Text.json t
  | .list items => '[' :: jsonItems items ++ [']']
  | .tuple items => '[' :: jsonItems items ++ [']']
  | .dict entries => '\x7b' :: jsonEntries entries ++ ['\x7d']
  | .frequency f => Text.json f.name
  | .weekday w => Text.json w.code
  | .every day => Text.json (every day).text
  | .nth ordinal day => Text.json (nth ordinal day).text
  | .moment t => Text.json (moment t).text

/-- The items with commas between them. -/
def jsonItems : List Datum → Text
  | [] => []
  | [item] => json item
  | item :: items => json item ++ commaWord ++ jsonItems items

/-- The keys and values with commas between the entries. -/
def jsonEntries : List (Text × Datum) → Text
  | [] => []
  | [(key, value)] => Text.json key ++ colonWord ++ json value
  | (key, value) :: entries =>
    Text.json key ++ colonWord ++ json value ++ commaWord ++ jsonEntries entries

end

end Datum

end Recurrence
