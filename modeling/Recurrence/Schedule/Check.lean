import Recurrence.Schedule.Construction

namespace Recurrence

/-- The values that make sense in a part, as the least and the greatest one and
whether zero is among them. Weekdays have no such range. -/
def ListPart.range? : ListPart → Option (Int × Int × Bool)
  | .setPosition => some (-366, 366, false)
  | .month => some (1, 12, false)
  | .monthDay => some (-31, 31, false)
  | .yearDay => some (-366, 366, false)
  | .weekNumber => some (-53, 53, false)
  | .weekday => none
  | .hour => some (0, 23, true)
  | .minute => some (0, 59, true)
  | .second => some (0, 59, true)

namespace Schedule

/-- Whether a number lies between two integers, both included. -/
def isWithin (d : Datum) (low high : Int) : Except Refusal Bool :=
  match d.compareInt? low, d.compareInt? high with
  | some (some below), some (some above) => .ok (below != .lt && above != .gt)
  | some _, some _ => .ok false
  | _, _ => .error (.fault .wrongKind)

/-- Whether a number is zero. -/
def isZero (d : Datum) : Bool := d.compareInt? 0 == some (some .eq)

/-- Checks the values of one part against its range. -/
def checkRange (part : ListPart) (low high : Int) (zeroAllowed : Bool) :
    List Datum → Except Refusal Unit
  | [] => .ok ()
  | value :: values => do
    let inside ← isWithin value low high
    if !inside || (isZero value && !zeroAllowed) then
      throw (.diagnostic (.outOfRange part value low high))
    checkRange part low high zeroAllowed values

/-- Checks all parts that have a range, one after the other. -/
def checkRanges (s : Schedule) : Except Refusal Unit :=
  ListPart.all.forM fun part =>
    match part.range? with
    | some (low, high, zeroAllowed) => checkRange part low high zeroAllowed (s.values part)
    | none => .ok ()

/-- The greatest ordinal of a weekday in the period of the schedule, where its
weekdays are numbered. -/
def ordinalLimit? (s : Schedule) : Option Nat :=
  match s.frequency with
  | .monthly => some 5
  | .yearly => if s.weekNumbers.isEmpty then some 53 else none
  | _ => none

/-- Checks that a weekday choice fits the period. -/
def checkChoice (s : Schedule) (choice : DayChoice) : Except Refusal Unit :=
  match choice with
  | .every _ => .ok ()
  | .nth ordinal _ =>
    match s.ordinalLimit? with
    | none => .error (.diagnostic (.ordinalFrequency choice))
    | some limit =>
      if isZero ordinal then .error (.diagnostic (.ordinalOutOfRange choice ordinal limit))
      else
        match ordinal.compareInt? limit, ordinal.compareInt? (-(limit : Int)) with
        | some above, some below =>
          if above = some .gt ∨ below = some .lt then
            .error (.diagnostic (.ordinalOutOfRange choice ordinal limit))
          else .ok ()
        | _, _ => .error (.fault .wrongKind)

/-- Checks that each list part may be used with the frequency. -/
def checkFrequencyParts (s : Schedule) : Except Refusal Unit := do
  if !s.weekNumbers.isEmpty && s.frequency != .yearly then
    throw (.diagnostic (.weekNumberFrequency s.frequency s.weekNumbers))
  if !s.yearDays.isEmpty && [.daily, .weekly, .monthly].contains s.frequency then
    throw (.diagnostic (.yearDayFrequency s.frequency s.yearDays))
  if !s.monthDays.isEmpty && s.frequency == .weekly then
    throw (.diagnostic (.monthDayFrequency s.monthDays))
  s.weekdays.forM s.checkChoice

/-- Whether a day of the month, counted from either end, exists in a month. The day
must be a number; only then is the length of the month looked up. -/
def fitsMonth (day month : Datum) : Except Refusal Bool :=
  match day.asNumber?, month.toMonth? with
  | none, _ => .error (.fault .wrongKind)
  | some _, some month =>
    isWithin day (-(Date.longestMonth month : Int)) (Date.longestMonth month)
  | some _, none => .error (.fault (if month.collectable then .missingKey else .wrongKind))

/-- Whether some day exists in the month, searched up to the first. -/
def anyFits (month : Datum) : List Datum → Except Refusal Bool
  | [] => .ok false
  | day :: days => do
    if ← fitsMonth day month then return true
    anyFits month days

/-- Whether some month has some of the days, searched up to the first. -/
def anyMonthFits (days : List Datum) : List Datum → Except Refusal Bool
  | [] => .ok false
  | month :: months => do
    if ← anyFits month days then return true
    anyMonthFits days months

/-- Checks that the days of the month occur in one of the months. -/
def checkReachable (s : Schedule) : Except Refusal Unit := do
  if s.monthDays.isEmpty || s.months.isEmpty then return
  if ← anyMonthFits s.monthDays s.months then return
  throw (.diagnostic (.unreachable s.monthDays s.months))

/-- Checks that a schedule makes sense and can occur from the start on. The
first problem found ends the check. -/
def check (s : Schedule) (start : Timestamp) : Except Refusal Unit := do
  s.checkRanges
  s.checkFrequencyParts
  if !s.setPositions.isEmpty && !s.hasListPart then
    throw (.diagnostic (.lonePositions s.setPositions))
  match s.ends with
  | none => pure ()
  | some ends =>
    if s.count != .none then throw (.diagnostic (.countWithEnd s.count))
    if ends.instant < start.instant then
      throw (.diagnostic (.endBeforeStart ends start.aware))
  s.checkReachable

end Schedule

end Recurrence
