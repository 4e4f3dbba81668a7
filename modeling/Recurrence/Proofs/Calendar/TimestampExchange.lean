import Recurrence.Fault
import Recurrence.Proofs.Calendar.UtcClock

namespace Recurrence.Timestamp

variable {t u : Timestamp}

/-- Normal moments are those in UTC, cut down to whole milliseconds. -/
theorem instant_of_normalize? (normal : t.normalize? = some u) :
    u.offset = some 0 ∧ u.instant = t.instant - t.instant % 1000 := by
  obtain ⟨utc, inside, rfl⟩ := Option.map_eq_some_iff.mp normal
  obtain ⟨seconds, micros, known⟩ := parts_of_toUtc? inside
  refine ⟨known, ?_⟩
  rw [← instant_of_toUtc? inside]
  unfold instant cutMillis
  dsimp only
  omega

/-- What is written for a moment within the years is read as that moment with its
milliseconds, and written again in the same way. -/
theorem read_wireText? (within : t.IsWithinYears) (basic : Bool) : ∃ text u,
    t.wireText? basic = some text ∧ read text = .ok u ∧ u.offset = some 0 ∧
      u.instant = t.instant - t.instant % 1000 ∧ u.wireText? basic = some text := by
  obtain ⟨u, normal⟩ := exists_normalize?_iff.mpr within
  have kept := normalize?_isNormal normal
  obtain ⟨known, instant⟩ := instant_of_normalize? normal
  refine ⟨u.utcText basic, u, ?_, read_utcText basic kept, known, instant, ?_⟩
  · rw [wireText?, normal, Option.map_some]
  · rw [wireText?, normalize?_of_isNormal kept, Option.map_some]

theorem IsWrittenAs.read_within {text : Text} (written : t.IsWrittenAs text)
    (within : t.IsWithinYears) :
    ∃ utc, Timestamp.read text = .ok utc ∧ utc.offset = some 0 ∧ utc.instant = t.instant := by
  obtain ⟨utc, inside⟩ := exists_toUtc?_iff.mpr within
  have read := written.read
  rw [inside] at read
  exact ⟨utc, read, offset_of_toUtc? inside, instant_of_toUtc? inside⟩

theorem IsWrittenAs.read_beyond {text : Text} (written : t.IsWrittenAs text)
    (beyond : ¬t.IsWithinYears) : Timestamp.read text = .error (.outOfRange text) := by
  have outside : t.toUtc? = none := by
    rw [Option.eq_none_iff_forall_ne_some]
    exact fun utc inside => beyond (exists_toUtc?_iff.mp ⟨utc, inside⟩)
  rw [written.read, outside]

/-- A timestamp comes back from its texts. The texts for UTC give back its moment with its
milliseconds. Every text of a clock that is apart from UTC by whole minutes, the form of
answers among them, gives back the exact moment in UTC, and is a bad value exactly when
that moment is outside of the years. -/
structure ComesBack (t : Timestamp) : Prop where
  wire : t.IsWithinYears → ∀ basic, ∃ text u, t.wireText? basic = some text ∧
    read text = .ok u ∧ u.offset = some 0 ∧ u.instant = t.instant - t.instant % 1000 ∧
      u.wireText? basic = some text
  answer : ∀ offset, t.IsZoned offset → t.IsWrittenAs t.isoText
  within : ∀ text, t.IsWrittenAs text → t.IsWithinYears →
    ∃ utc, read text = .ok utc ∧ utc.offset = some 0 ∧ utc.instant = t.instant
  beyond : ∀ text, t.IsWrittenAs text → ¬t.IsWithinYears →
    read text = .error (.outOfRange text) ∧ (Fault.timestamp (.outOfRange text)).kind = .badValue

/-- Every timestamp comes back from its texts. -/
theorem comesBack (t : Timestamp) : t.ComesBack where
  wire := read_wireText?
  answer _ := isWrittenAs_isoText
  within _ := IsWrittenAs.read_within
  beyond _ written beyond := ⟨written.read_beyond beyond, rfl⟩

/-- Three eighths into the last second of 2025, on a clock that is two hours ahead of UTC. -/
def newYearsEve : Timestamp := ⟨63902822399, 375000, some 7200, by decide, by decide⟩

/-- Half past midnight of the first day, on a clock that is an hour ahead of UTC. -/
def firstHour : Timestamp := ⟨1800, 0, some 3600, by decide, by decide⟩

theorem comesBack_newYearsEve :
    (newYearsEve.IsWithinYears ∧ newYearsEve.IsZoned 7200 ∧
      (∃ text u, newYearsEve.wireText? true = some text ∧ read text = .ok u ∧
        u.instant = newYearsEve.instant) ∧
      ∃ utc, read newYearsEve.isoText = .ok utc ∧ utc.instant = newYearsEve.instant) ∧
    ¬firstHour.IsWithinYears ∧ firstHour.IsZoned 3600 ∧
      read firstHour.isoText = .error (.outOfRange firstHour.isoText) := by
  have within : newYearsEve.IsWithinYears := by decide
  have beyond : ¬firstHour.IsWithinYears := by decide
  have eve : newYearsEve.IsZoned 7200 := ⟨rfl, rfl, by decide⟩
  have morning : firstHour.IsZoned 3600 := ⟨rfl, rfl, by decide⟩
  obtain ⟨text, u, wire, readWire, _, cut, _⟩ := (comesBack newYearsEve).wire within true
  have whole : newYearsEve.instant % 1000 = 0 := by decide
  have written := (comesBack newYearsEve).answer 7200 eve
  obtain ⟨utc, readIso, _, same⟩ := (comesBack newYearsEve).within _ written within
  have outside := (comesBack firstHour).beyond _ ((comesBack firstHour).answer 3600 morning) beyond
  rw [whole, Int.sub_zero] at cut
  exact ⟨⟨within, eve, ⟨text, u, wire, readWire, cut⟩, utc, readIso, same⟩, beyond, morning,
    outside.1⟩

end Recurrence.Timestamp
