import Recurrence.Text.Basic

namespace Recurrence.Text

/-- The character of a decimal digit; larger numbers have none of their own. -/
def digitChar (d : Nat) : Char := Char.ofNat (48 + d % 10)

/-- The ASCII digits, and no digit of any other script. -/
def isDigit (c : Char) : Bool := 48 ≤ c.toNat && c.toNat ≤ 57

/-- The value of an ASCII digit. -/
def digitValue (c : Char) : Nat := c.toNat - 48

/-- The decimal digits of a number, most significant first, with no leading zero. -/
def ofNat (n : Nat) : Text :=
  if n < 10 then [digitChar n] else ofNat (n / 10) ++ [digitChar (n % 10)]
termination_by n

/-- The decimal text of an integer: a minus sign for the negative ones and
no sign otherwise. -/
def ofInt : Int → Text
  | .ofNat n => ofNat n
  | .negSucc n => '-' :: ofNat (n + 1)

/-- The digits of a number, filled up with zeros on the left to a least width. -/
def padded (width n : Nat) : Text :=
  let digits := ofNat n
  List.replicate (width - digits.length) '0' ++ digits

/-- The number that a run of digits writes, leading zeros allowed. -/
def natValue (digits : Text) : Nat :=
  digits.foldl (fun value c => 10 * value + digitValue c) 0

/-- The number that a one with so many zeros writes. -/
def tenTo (zeros : Nat) : Nat := Nat.pow 10 zeros

/-- The millionths that the digits after a point write, of which six count. -/
def millionths (digits : Text) : Nat :=
  let six := digits.take 6
  natValue six * tenTo (6 - six.length)

/-- Reads a non-empty text of digits only, at most `most` of them. -/
def nat? (most : Nat) (t : Text) : Option Nat :=
  if !t.isEmpty && t.all isDigit && decide (t.length ≤ most) then some (natValue t) else none

/-- Reads digits after an optional sign. -/
def int? (most : Nat) : Text → Option Int
  | '-' :: digits => (nat? most digits).map fun n => -(n : Int)
  | '+' :: digits => (nat? most digits).map fun n => (n : Int)
  | digits => (nat? most digits).map fun n => (n : Int)

/-- Takes exactly `count` digits off the front and reads them. -/
def takeNat? (count : Nat) (t : Text) : Option (Nat × Text) :=
  let front := t.take count
  if front.length = count ∧ front.all isDigit then some (natValue front, t.drop count) else none

end Recurrence.Text
