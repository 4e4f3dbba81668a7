import Recurrence.Intake.Scalar

namespace Recurrence.Intake

open Text (takeNat?)

/-- The least and the greatest second counted from 1970 that is taken for a
moment: the years from 1600 to 9999. -/
def epochRange : Int × Int := (-11676096000, 253402300799)

/-- Numbers beyond this count milliseconds and not seconds. -/
def mostSeconds : Nat := 20000000000

/-- The moment that lies so many seconds, or milliseconds for a large number,
and microseconds after the beginning of 1970. -/
def ofEpoch? (count : Int) (micros : Nat) : Option Timestamp :=
  let (seconds, fraction) :=
    if count.natAbs > mostSeconds then (count / 1000, (count % 1000).toNat * 1000) else (count, 0)
  let total := micros + fraction
  let seconds := seconds + (total / 1000000 : Nat)
  if epochRange.1 ≤ seconds ∧ seconds ≤ epochRange.2 then
    Timestamp.make? (seconds + Timestamp.epoch) (total % 1000000) (some 0)
  else none

/-- The moment that a float counts to: its floor, with the microseconds of its
fraction, a half rounded up. -/
def ofEpochFloat? (x : Decimal) : Option Timestamp :=
  match x, x.floor? with
  | .finite _ digits exponent, some whole =>
    let scale := Text.tenTo (-exponent).toNat
    let fraction := if exponent < 0 then digits % scale else 0
    ofEpoch? whole ((fraction * 2000000 + scale) / (2 * scale))
  | _, _ => none

/-- Reads a distance from UTC, with or without a colon. -/
def readOffset? : Text → Option (Option Int)
  | [] => some none
  | ['Z'] => some (some 0)
  | ['z'] => some (some 0)
  | sign :: rest => do
    guard (sign = '+' ∨ sign = '-' ∨ sign = '\u2212')
    let (hours, rest) ← takeNat? 2 rest
    let rest := match rest with
      | ':' :: rest => rest
      | rest => rest
    let (minutes, rest) ← takeNat? 2 rest
    guard (rest = [] ∧ hours ≤ 23 ∧ minutes ≤ 59)
    let seconds : Int := ((hours * 60 + minutes) * 60 : Nat)
    return some (if sign = '+' then seconds else -seconds)

/-- Reads the seconds of a time with their fraction, of which six digits count. -/
def readSeconds? : Text → Option (Nat × Nat × Text)
  | ':' :: rest => do
    let (second, rest) ← takeNat? 2 rest
    match rest with
    | mark :: more =>
      if mark = '.' ∨ mark = ',' then
        let digits := more.takeWhile Text.isDigit
        guard (digits ≠ [])
        return (second, Text.millionths digits, more.dropWhile Text.isDigit)
      else return (second, 0, rest)
    | [] => return (second, 0, rest)
  | rest => some (0, 0, rest)

/-- Reads a date with dashes. -/
def readDate? (t : Text) : Option (Date × Text) := do
  let (year, rest) ← takeNat? 4 t
  match rest with
  | '-' :: rest =>
    let (month, rest) ← takeNat? 2 rest
    match rest with
    | '-' :: rest =>
      let (day, rest) ← takeNat? 2 rest
      guard (Date.isValid ⟨year, month, day⟩)
      return (⟨year, month, day⟩, rest)
    | _ => none
  | _ => none

/-- Reads a date with a time of at least hours and minutes. -/
def readDateTime? (t : Text) : Option Timestamp := do
  let (date, rest) ← readDate? t
  match rest with
  | separator :: rest =>
    guard (separator = 'T' ∨ separator = 't' ∨ separator = ' ' ∨ separator = '_')
    let (hour, rest) ← takeNat? 2 rest
    match rest with
    | ':' :: rest =>
      let (minute, rest) ← takeNat? 2 rest
      let (second, micros, rest) ← readSeconds? rest
      let offset ← readOffset? rest
      guard (hour ≤ 23 ∧ minute ≤ 59 ∧ second ≤ 59)
      Timestamp.ofParts? date ((hour * 60 + minute) * 60 + second) micros offset
    | _ => none
  | [] => none

/-- Reads a number that counts to a moment: digits after an optional sign, with
an optional fraction. -/
def readCount? (t : Text) : Option Timestamp :=
  let (negative, unsigned) := match t with
    | '-' :: rest => (true, rest)
    | '+' :: rest => (false, rest)
    | rest => (false, rest)
  let digits := unsigned.takeWhile Text.isDigit
  if digits.isEmpty then none
  else
    match unsigned.dropWhile Text.isDigit with
    | [] =>
      let n := Text.natValue digits
      ofEpoch? (if negative then -(n : Int) else n) 0
    | '.' :: fraction =>
      if fraction.all Text.isDigit then
        ofEpochFloat? (Decimal.normal negative (Text.natValue (digits ++ fraction))
          (-(fraction.length : Int)))
      else none
    | _ => none

/-- Reads a moment: a date with a time, a number that counts to it, or a date
alone for its midnight. -/
def readMoment? (t : Text) : Option Timestamp :=
  match readDateTime? t with
  | some moment => some moment
  | none =>
    match readCount? t with
    | some moment => some moment
    | none =>
      match readDate? t with
      | some (date, []) => Timestamp.ofParts? date 0 0 none
      | _ => none

/-- Takes in a moment: one itself, a number that counts to it, or a text. -/
def moment (d : Datum) : Intake Timestamp :=
  match d with
  | .moment t => .ok t
  | .int n =>
    match ofEpoch? n 0 with
    | some t => .ok t
    | none => refuse .datetimeParsing
  | .float x =>
    match ofEpochFloat? x with
    | some t => .ok t
    | none => refuse .datetimeParsing
  | _ =>
    match d.asText? with
    | some t =>
      match readMoment? t with
      | some moment => .ok moment
      | none => refuse .datetimeFromDateParsing
    | none => refuse .datetimeType

end Recurrence.Intake
