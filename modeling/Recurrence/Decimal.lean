import Recurrence.Text.Numeral

namespace Recurrence

/-- A binary floating-point number, kept as the shortest decimal that reads back
as it: `digits` times ten to the `exponent`, where `digits` does not end in zero
unless it is zero. -/
inductive Decimal where
  | finite (negative : Bool) (digits : Nat) (exponent : Int)
  | infinite (negative : Bool)
  | notANumber
  deriving DecidableEq, Repr

namespace Decimal

/-- Moves trailing zeros of the digits into the exponent. -/
def stripZeros (digits : Nat) (exponent : Int) : Nat × Int :=
  if h : digits ≠ 0 ∧ digits % 10 = 0 then stripZeros (digits / 10) (exponent + 1)
  else (digits, exponent)
termination_by digits
decreasing_by omega

/-- The number with the given sign, digits and exponent; zero keeps its sign
and has exponent zero. -/
def normal (negative : Bool) (digits : Nat) (exponent : Int) : Decimal :=
  if digits = 0 then .finite negative 0 0
  else
    let (d, e) := stripZeros digits exponent
    .finite negative d e

/-- Positional notation serves the decimal exponents from the first of these
up to, but not including, the second. -/
def positionalRange : Int × Int := (-4, 16)

/-- The text of a number: positional with at least one place after the point,
or with a signed exponent of at least two digits. -/
def text : Decimal → Text
  | .notANumber => "nan".toList
  | .infinite negative => if negative then "-inf".toList else "inf".toList
  | .finite negative digits exponent =>
    let sign := if negative then ['-'] else []
    let ds := Text.ofNat digits
    let point : Int := ds.length + exponent
    let scientific := point - 1
    if digits = 0 then sign ++ "0.0".toList
    else if positionalRange.1 ≤ scientific ∧ scientific < positionalRange.2 then
      if point ≤ 0 then sign ++ "0.".toList ++ List.replicate (-point).toNat '0' ++ ds
      else if ds.length ≤ point.toNat then
        sign ++ ds ++ List.replicate (point.toNat - ds.length) '0' ++ ".0".toList
      else sign ++ ds.take point.toNat ++ ['.'] ++ ds.drop point.toNat
    else
      let mantissa := if ds.length = 1 then ds else ds.take 1 ++ ['.'] ++ ds.drop 1
      let mark := if scientific < 0 then "e-".toList else "e+".toList
      sign ++ mantissa ++ mark ++ Text.padded 2 scientific.natAbs

/-- Reads unsigned digits with an optional fraction and an optional exponent. -/
def readMagnitude? (negative : Bool) (t : Text) : Option Decimal := do
  let whole := t.takeWhile Text.isDigit
  let rest := t.dropWhile Text.isDigit
  let (fraction, rest) :=
    match rest with
    | '.' :: more => (more.takeWhile Text.isDigit, more.dropWhile Text.isDigit)
    | more => ([], more)
  guard (!(whole.isEmpty && fraction.isEmpty))
  let exponent ←
    match rest with
    | [] => some 0
    | e :: power => if e = 'e' ∨ e = 'E' then Text.int? power.length power else none
  return normal negative (Text.natValue (whole ++ fraction)) (exponent - fraction.length)

/-- Reads a signed number, an infinity or the text that stands for no number. -/
def read? (t : Text) : Option Decimal :=
  if t = "nan".toList then some .notANumber
  else if t = "inf".toList then some (.infinite false)
  else if t = "-inf".toList then some (.infinite true)
  else
    match t with
    | '-' :: magnitude => readMagnitude? true magnitude
    | magnitude => readMagnitude? false magnitude

/-- Whether the number is zero of either sign. -/
def isZero : Decimal → Bool
  | .finite _ 0 _ => true
  | _ => false

/-- The nearest whole number to a quotient, a tie going to the even one. -/
def nearest (num den : Nat) : Nat :=
  let down := num / den
  let rest := num % den
  if 2 * rest > den ∨ (2 * rest = den ∧ down % 2 = 1) then down + 1 else down

/-- A whole number rounded to the 53 bits of a binary float. -/
def roundBits (n : Nat) : Nat :=
  let unit := 1 <<< (n.log2 - 52)
  nearest n unit * unit

/-- The number with a sign. -/
def signed (negative : Bool) (n : Nat) : Int := if negative then -(n : Int) else n

/-- The integer that a number without a fraction equals. -/
def whole? : Decimal → Option Int
  | .finite negative digits exponent =>
    if 0 ≤ exponent then some (signed negative (roundBits (digits * Text.tenTo exponent.toNat)))
    else none
  | _ => none

/-- The greatest integer that is not above a finite number. -/
def floor? : Decimal → Option Int
  | .finite negative digits exponent =>
    if 0 ≤ exponent then some (signed negative (roundBits (digits * Text.tenTo exponent.toNat)))
    else some (signed negative digits / Text.tenTo (-exponent).toNat)
  | _ => none

/-- The integer that is left when the fraction of a finite number is dropped. -/
def truncated? : Decimal → Option Int
  | .finite true digits exponent =>
    (Decimal.finite false digits exponent).floor?.map fun n => -n
  | d => d.floor?

/-- The millionths in a finite number, to the nearest one. What counts is the
binary float that the decimal stands for, whose 53 bits may lie off the decimal. -/
def millionths? : Decimal → Option Int
  | .finite negative digits exponent =>
    let num := digits * Text.tenTo exponent.toNat
    let den := Text.tenTo (-exponent).toNat
    let places := 52 + den.log2 - num.log2
    let places := if num <<< places < den <<< 52 then places + 1 else places
    let bits := nearest (num <<< places) den
    some (signed negative (nearest (bits * 1000000) (1 <<< places)))
  | _ => none

/-- How a number lies to an integer; no answer for the value that is no number. -/
def compareInt? (d : Decimal) (n : Int) : Option Ordering :=
  match d with
  | .notANumber => none
  | .infinite negative => some (if negative then .lt else .gt)
  | .finite negative digits exponent =>
    if 0 ≤ exponent then
      some (compare (signed negative (roundBits (digits * Text.tenTo exponent.toNat))) n)
    else some (compare (signed negative digits) (n * Text.tenTo (-exponent).toNat))

/-- Equality of the numbers meant: the two zeros are equal. -/
def same (a b : Decimal) : Bool := (a.isZero && b.isZero) || a == b

end Decimal

end Recurrence
