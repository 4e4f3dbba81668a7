import Recurrence.Calendar.Date

namespace Recurrence

/-- A date and time of the years one to 9999 on some wall clock. The clock's
distance from UTC may be known or not. -/
structure Timestamp where
  /-- Whole seconds that the wall clock shows since the first of January of year one. -/
  seconds : Nat
  /-- Microseconds past the whole second. -/
  micros : Nat
  /-- Seconds by which the wall clock is ahead of UTC, when that is known. -/
  offset : Option Int
  seconds_lt : seconds < 315537897600
  micros_lt : micros < 1000000
  deriving DecidableEq, Repr

namespace Timestamp

/-- A whole second has no microseconds too many. -/
theorem zero_micros_lt : 0 < 1000000 := by decide

/-- The number of seconds in all the years together. -/
def horizon : Nat := 315537897600

/-- Seconds from the first of January of year one to that of 1970. -/
def epoch : Int := 62135596800

/-- The timestamp with the given parts, if its seconds lie within the years and
its microseconds within the second. -/
def make? (seconds : Int) (micros : Nat) (offset : Option Int) : Option Timestamp :=
  if inside : 0 ≤ seconds ∧ seconds < 315537897600 ∧ micros < 1000000 then
    some ⟨seconds.toNat, micros, offset, by omega, inside.2.2⟩
  else none

/-- The number of the day that the wall clock shows. -/
def dayNumber (t : Timestamp) : Nat := t.seconds / 86400 + 1

/-- The date that the wall clock shows. -/
def date (t : Timestamp) : Date := Date.ofNumber t.dayNumber

/-- The second of the day that the wall clock shows. -/
def secondOfDay (t : Timestamp) : Nat := t.seconds % 86400

def hour (t : Timestamp) : Nat := t.secondOfDay / 3600

def minute (t : Timestamp) : Nat := t.secondOfDay / 60 % 60

def second (t : Timestamp) : Nat := t.secondOfDay % 60

/-- The timestamp of a valid date and a second of the day. -/
def ofParts? (date : Date) (secondOfDay micros : Nat) (offset : Option Int) : Option Timestamp :=
  if date.isValid ∧ secondOfDay < 86400 then
    make? ((date.number - 1) * 86400 + secondOfDay : Nat) micros offset
  else none

/-- The moment in microseconds of UTC since the first of January of year one.
A clock with no known distance is taken to show UTC. -/
def instant (t : Timestamp) : Int :=
  ((t.seconds : Int) - t.offset.getD 0) * 1000000 + t.micros

/-- Whether the distance from UTC is known. -/
def isAware (t : Timestamp) : Bool := t.offset.isSome

/-- Takes a clock with no known distance to show UTC. -/
def aware (t : Timestamp) : Timestamp := { t with offset := some (t.offset.getD 0) }

/-- The same moment on the UTC clock, unless UTC is then outside of the years. -/
def toUtc? (t : Timestamp) : Option Timestamp :=
  make? ((t.seconds : Int) - t.offset.getD 0) t.micros (some 0)

/-- Drops the microseconds past the whole millisecond. -/
def cutMillis (t : Timestamp) : Timestamp :=
  { t with
    micros := t.micros - t.micros % 1000
    micros_lt := Nat.lt_of_le_of_lt (Nat.sub_le _ _) t.micros_lt }

/-- Drops the fraction of the second. -/
def cutSeconds (t : Timestamp) : Timestamp := { t with micros := 0, micros_lt := zero_micros_lt }

/-- The form in which rules keep their end: in UTC, with whole milliseconds. -/
def normalize? (t : Timestamp) : Option Timestamp := t.toUtc?.map cutMillis

/-- Whether a timestamp is in the form that rules keep. -/
def isNormal (t : Timestamp) : Bool := t.offset == some 0 && t.micros % 1000 == 0

theorem normalize?_isNormal {t u : Timestamp} (found : t.normalize? = some u) : u.isNormal := by
  simp only [normalize?, toUtc?, make?, Option.map_eq_some_iff] at found
  obtain ⟨v, inside, rfl⟩ := found
  split at inside
  · obtain rfl := Option.some.inj inside
    simp only [isNormal, cutMillis, beq_self_eq_true, Bool.true_and, beq_iff_eq]
    omega
  · cases inside

/-- A timestamp in the form that rules keep stays as it is. -/
theorem normalize?_of_isNormal {t : Timestamp} (normal : t.isNormal) : t.normalize? = some t := by
  obtain ⟨seconds, micros, offset, seconds_lt, micros_lt⟩ := t
  simp only [isNormal, Bool.and_eq_true, beq_iff_eq] at normal
  obtain ⟨rfl, whole⟩ := normal
  have inside : (0 : Int) ≤ seconds ∧ (seconds : Int) < 315537897600 := by omega
  simp [normalize?, toUtc?, make?, inside, micros_lt, cutMillis, whole]

end Timestamp

end Recurrence
