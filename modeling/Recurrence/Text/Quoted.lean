import Recurrence.Text.Printable

namespace Recurrence.Text

/-- One hexadecimal digit, in lower case. -/
def hexChar (d : Nat) : Char :=
  if d < 10 then Char.ofNat (48 + d) else Char.ofNat (87 + d)

/-- The lowest `width` hexadecimal digits of a number. -/
def hex (width n : Nat) : Text :=
  match width with
  | 0 => []
  | w + 1 => hex w (n / 16) ++ [hexChar (n % 16)]

/-- The escape of a character that has no visible form, by the shortest of the
three widths that holds it. -/
def hexEscape (c : Char) : Text :=
  let n := c.toNat
  if n < 0x100 then '\\' :: 'x' :: hex 2 n
  else if n < 0x10000 then '\\' :: 'u' :: hex 4 n
  else '\\' :: 'U' :: hex 8 n

/-- The mark that encloses a quoted text: the single one, unless the text has
that one inside and not the double one. -/
def quoteMark (t : Text) : Char :=
  if t.contains '\'' && !t.contains '"' then '"' else '\''

/-- A character as it stands between the given marks. -/
def quotedChar (mark c : Char) : Text :=
  if c == mark || c == '\\' then ['\\', c]
  else if c == '\n' then "\\n".toList
  else if c == '\r' then "\\r".toList
  else if c == '\t' then "\\t".toList
  else if isPrintable c then [c]
  else hexEscape c

/-- The text between quote marks, with everything escaped that would not show
as itself. Diagnostics name a loose text this way. -/
def quoted (t : Text) : Text :=
  let mark := quoteMark t
  mark :: t.flatMap (quotedChar mark) ++ [mark]

end Recurrence.Text
