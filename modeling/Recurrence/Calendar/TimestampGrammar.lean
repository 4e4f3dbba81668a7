import Recurrence.Calendar.Timestamp
import Recurrence.Text.Numeral

namespace Recurrence

/-- Why a text is no timestamp. -/
inductive TimestampError where
  /-- Nothing is left after trimming. -/
  | empty
  /-- The date or its moment in UTC is outside of the years one to 9999. -/
  | outOfRange (text : Text)
  /-- The text does not have the form of a timestamp. -/
  | malformed
  deriving DecidableEq, Repr

namespace Timestamp

open Text (takeNat?)

/-- What goes wrong while a trimmed text is read. -/
inductive Misread where
  | malformed
  | outOfRange
  deriving DecidableEq, Repr

/-- Takes what an optional reading gives, or ends the reading as malformed. -/
def need {α : Type} : Option α → Except Misread α
  | some a => .ok a
  | none => .error .malformed

/-- A year, optionally a month and a day, with dashes everywhere or nowhere.
The numbers are not compared with the calendar here. -/
def calendarDate? (t : Text) : Option (Date × Text) := do
  let (year, rest) ← takeNat? 4 t
  match rest with
  | [] => return (⟨year, 1, 1⟩, [])
  | '-' :: rest =>
    let (month, rest) ← takeNat? 2 rest
    match rest with
    | [] => return (⟨year, month, 1⟩, [])
    | '-' :: rest =>
      let (day, rest) ← takeNat? 2 rest
      return (⟨year, month, day⟩, rest)
    | _ => none
  | _ =>
    let (month, rest) ← takeNat? 2 rest
    let (day, rest) ← takeNat? 2 rest
    return (⟨year, month, day⟩, rest)

/-- The date of a day number, if the number is one of the years' days. -/
def dateOfNumber (number : Int) : Except Misread Date :=
  if 1 ≤ number ∧ number ≤ Date.lastNumber then .ok (Date.ofNumber number.toNat)
  else .error .outOfRange

/-- The day of a numbered week. Week one holds the fourth of January and weeks
begin on Monday, so its first days may belong to the year before. -/
def weekDate (year week day : Nat) : Except Misread Date :=
  if 1 ≤ year ∧ 1 ≤ week ∧ week ≤ 53 ∧ 1 ≤ day ∧ day ≤ 7 then
    let fourth := Date.daysBeforeYear year + 4
    let monday : Int := (fourth : Int) - ((fourth + 6) % 7 : Nat)
    dateOfNumber (monday + ((week - 1) * 7 + (day - 1) : Nat))
  else .error .malformed

/-- A year and a day of the year, if the year has that day. -/
def yearDayDate (year ordinal : Nat) : Except Misread Date :=
  if 1 ≤ year ∧ 1 ≤ ordinal ∧ ordinal ≤ Date.yearLength year then
    .ok (Date.ofNumber (Date.daysBeforeYear year + ordinal))
  else .error .malformed

/-- A year with a numbered week or with a day of the year. -/
def ordinalDate (t : Text) : Except Misread (Date × Text) := do
  let (year, rest) ← need (takeNat? 4 t)
  let (dashed, rest) := match rest with
    | '-' :: rest => (true, rest)
    | rest => (false, rest)
  match rest with
  | 'W' :: rest =>
    let (week, rest) ← need (takeNat? 2 rest)
    let (day, rest) ← match rest, dashed with
      | [], _ => pure (1, [])
      | '-' :: rest, true => need (takeNat? 1 rest)
      | '-' :: _, false => .error .malformed
      | _, true => .error .malformed
      | rest, false => need (takeNat? 1 rest)
    return (← weekDate year week day, rest)
  | rest =>
    let (ordinal, rest) ← need (takeNat? 3 rest)
    return (← yearDayDate year ordinal, rest)

/-- A date in the calendar form or, failing that, in the ordinal one. -/
def readDate (t : Text) : Except Misread (Date × Text) :=
  match calendarDate? t with
  | some found => .ok found
  | none => ordinalDate t

/-- A distance from UTC in seconds: `Z` in either case, or a sign with hours and
optionally minutes. -/
def readOffset? : Text → Option Int
  | ['Z'] => some 0
  | ['z'] => some 0
  | sign :: rest => do
    guard (sign = '+' ∨ sign = '-')
    let (hours, rest) ← takeNat? 2 rest
    let minutes ← match rest with
      | [] => some 0
      | ':' :: rest =>
        match takeNat? 2 rest with
        | some (minutes, []) => some minutes
        | _ => none
      | rest =>
        match takeNat? 2 rest with
        | some (minutes, []) => some minutes
        | _ => none
    guard (hours ≤ 23 ∧ minutes ≤ 59)
    let seconds : Int := ((hours * 60 + minutes) * 60 : Nat)
    return if sign = '-' then -seconds else seconds
  | [] => none

/-- A time of day as it is written, where hour 24 stands for the end of the day. -/
structure Clock where
  hour : Nat := 0
  minute : Nat := 0
  second : Nat := 0
  micros : Nat := 0
  offset : Option Int := none
  deriving DecidableEq, Repr

/-- Whether a character begins a distance from UTC. -/
def startsOffset (c : Char) : Bool := c = '-' || c = '+' || c = 'Z' || c = 'z'

/-- The rest of a time after its last number: nothing, or a distance from UTC. -/
def readClockEnd? (clock : Clock) (t : Text) : Option Clock :=
  match t with
  | [] => some clock
  | t => (readOffset? t).map fun offset => { clock with offset := some offset }

/-- A fraction of the second, of which six digits count, and what follows it. -/
def readFraction? (clock : Clock) (t : Text) : Option Clock :=
  match t with
  | [] => some clock
  | mark :: rest =>
    let digits := rest.takeWhile Text.isDigit
    if (mark = '.' ∨ mark = ',') ∧ digits ≠ [] then
      readClockEnd? { clock with micros := Text.millionths digits }
        (rest.dropWhile Text.isDigit)
    else if startsOffset mark then readClockEnd? clock t
    else none

/-- The seconds of a time and what follows them. A colon stands before them
exactly when one stood before the minutes. -/
def readSecond? (clock : Clock) (colons : Bool) (t : Text) : Option Clock :=
  match t with
  | [] => some clock
  | c :: rest =>
    if startsOffset c then readClockEnd? clock t
    else do
      let digits ← if colons then (if c = ':' then some rest else none) else some t
      let (second, rest) ← takeNat? 2 digits
      readFraction? { clock with second := second } rest

/-- The minutes of a time and what follows them. -/
def readMinute? (clock : Clock) (t : Text) : Option Clock :=
  match t with
  | [] => some clock
  | c :: rest =>
    if startsOffset c then readClockEnd? clock t
    else do
      let (colons, digits) := if c = ':' then (true, rest) else (false, t)
      let (minute, rest) ← takeNat? 2 digits
      readSecond? { clock with minute := minute } colons rest

/-- A time of at least two characters. The hour may be left out before a
distance from UTC, and hour 24 allows no minutes, seconds or fraction. -/
def readClock? (t : Text) : Option Clock := do
  guard (2 ≤ t.length)
  let clock ← match t with
    | [] => none
    | c :: _ =>
      if startsOffset c then readClockEnd? {} t
      else do
        let (hour, rest) ← takeNat? 2 t
        readMinute? { hour := hour } rest
  guard (clock.hour ≠ 24 ∨ (clock.minute = 0 ∧ clock.second = 0 ∧ clock.micros = 0))
  return clock

/-- The timestamp of a date and a written time. The end of a day is the
beginning of the next one. -/
def assemble (date : Date) (clock : Clock) : Except Misread Timestamp := do
  let nextDay := clock.hour = 24
  let hour := if nextDay then 0 else clock.hour
  if ¬(date.isValid ∧ hour ≤ 23 ∧ clock.minute ≤ 59 ∧ clock.second ≤ 59) then
    throw .malformed
  let day := if nextDay then date.number else date.number - 1
  let seconds := day * 86400 + (hour * 60 + clock.minute) * 60 + clock.second
  match make? seconds clock.micros clock.offset with
  | some t => return t
  | none => throw .outOfRange

/-- Reads a trimmed text: a date and, after one separating character of any
kind, a time. Only ASCII characters are admitted. -/
def readTrimmed (t : Text) : Except Misread Timestamp := do
  if ¬t.all fun c => c.toNat < 128 then throw .malformed
  let (date, rest) ← readDate t
  match rest with
  | [] => assemble date {}
  | _ :: time => assemble date (← need (readClock? time))

/-- Reads a timestamp in the extended or the compact form, or a date alone, and
gives its moment on the UTC clock. -/
def read (text : Text) : Except TimestampError Timestamp :=
  let t := text.trim
  if t.isEmpty then .error .empty
  else
    match readTrimmed t with
    | .error .malformed => .error .malformed
    | .error .outOfRange => .error (.outOfRange t)
    | .ok stamp =>
      match stamp.toUtc? with
      | some utc => .ok utc
      | none => .error (.outOfRange t)

/-- Reads the form that answers give a timestamp in, where the fraction may have
one to six digits and the distance from UTC may have seconds. -/
def ofIsoText? (t : Text) : Option Timestamp := do
  let (date, rest) ← calendarDate? t
  let (hour, rest) ← match rest with
    | 'T' :: rest => takeNat? 2 rest
    | _ => none
  let (minute, rest) ← match rest with
    | ':' :: rest => takeNat? 2 rest
    | _ => none
  let (second, rest) ← match rest with
    | ':' :: rest => takeNat? 2 rest
    | _ => none
  let (micros, rest) ← match rest with
    | '.' :: rest =>
      let digits := rest.takeWhile Text.isDigit
      if digits ≠ [] ∧ digits.length ≤ 6 then
        some (Text.millionths digits, rest.dropWhile Text.isDigit)
      else none
    | rest => some (0, rest)
  let offset ← match rest with
    | [] => some none
    | sign :: rest => do
      guard (sign = '+' ∨ sign = '-')
      let (hours, rest) ← takeNat? 2 rest
      let (minutes, rest) ← match rest with
        | ':' :: rest => takeNat? 2 rest
        | _ => none
      let seconds ← match rest with
        | [] => some 0
        | ':' :: rest =>
          match takeNat? 2 rest with
          | some (seconds, []) => some seconds
          | _ => none
        | _ => none
      guard (hours ≤ 23 ∧ minutes ≤ 59 ∧ seconds ≤ 59)
      let total : Int := ((hours * 60 + minutes) * 60 + seconds : Nat)
      some (some (if sign = '-' then -total else total))
  guard (hour ≤ 23 ∧ minute ≤ 59 ∧ second ≤ 59)
  ofParts? date ((hour * 60 + minute) * 60 + second) micros offset

end Timestamp

end Recurrence
