import Recurrence.Calendar.Timestamp
import Recurrence.Text.Numeral

namespace Recurrence.Timestamp

open Text (padded)

/-- Year, month and day with dashes between them. -/
def dateText (t : Timestamp) : Text :=
  let d := t.date
  padded 4 d.year ++ ['-'] ++ padded 2 d.month ++ ['-'] ++ padded 2 d.day

/-- Hour, minute and second with colons between them. -/
def clockText (t : Timestamp) : Text :=
  padded 2 t.hour ++ [':'] ++ padded 2 t.minute ++ [':'] ++ padded 2 t.second

/-- The distance from UTC: a sign, hours and minutes, and seconds only when
there are any. -/
def offsetText : Option Int → Text
  | none => []
  | some offset =>
    let n := offset.natAbs
    let sign := if offset < 0 then '-' else '+'
    let base := sign :: padded 2 (n / 3600) ++ [':'] ++ padded 2 (n / 60 % 60)
    if n % 60 = 0 then base else base ++ [':'] ++ padded 2 (n % 60)

/-- Six digits of the fraction after a point, or nothing for a whole second. -/
def microsText (t : Timestamp) : Text :=
  if t.micros = 0 then [] else '.' :: padded 6 t.micros

/-- Date and time with the given character between them, the fraction when
there is one, and the distance from UTC when it is known. -/
def textWith (separator : Char) (t : Timestamp) : Text :=
  t.dateText ++ [separator] ++ t.clockText ++ t.microsText ++ offsetText t.offset

/-- The form that answers give a timestamp in. -/
def isoText (t : Timestamp) : Text := textWith 'T' t

/-- Date, time and `Z` of a clock that shows UTC, with three digits of the
fraction when the milliseconds are not zero. -/
def extendedText (t : Timestamp) : Text :=
  let fraction := if t.micros / 1000 = 0 then [] else '.' :: padded 3 (t.micros / 1000)
  t.dateText ++ ['T'] ++ t.clockText ++ fraction ++ ['Z']

/-- The compact form without dashes and colons, which has no fraction. -/
def basicText (t : Timestamp) : Text :=
  let d := t.date
  padded 4 d.year ++ padded 2 d.month ++ padded 2 d.day ++ ['T'] ++
    padded 2 t.hour ++ padded 2 t.minute ++ padded 2 t.second ++ ['Z']

/-- The text of a clock that shows UTC. The compact form is given only when no
milliseconds would be lost. -/
def utcText (basic : Bool) (t : Timestamp) : Text :=
  if basic && t.micros / 1000 == 0 then t.basicText else t.extendedText

/-- The text of a moment: its UTC clock, unless UTC is then outside of the years. -/
def wireText? (basic : Bool) (t : Timestamp) : Option Text := t.normalize?.map (utcText basic)

end Recurrence.Timestamp
