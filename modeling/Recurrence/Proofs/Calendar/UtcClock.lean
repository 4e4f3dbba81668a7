import Recurrence.Proofs.Calendar.IsoReading

namespace Recurrence.Timestamp

variable {t utc : Timestamp} {offset : Int}

theorem parts_of_toUtc? (inside : t.toUtc? = some utc) :
    (utc.seconds : Int) = t.seconds - t.offset.getD 0 ∧ utc.micros = t.micros ∧
      utc.offset = some 0 := by
  unfold toUtc? make? at inside
  split at inside
  · rename_i bounds
    cases inside
    exact ⟨Int.toNat_of_nonneg bounds.1, rfl, rfl⟩
  · cases inside

theorem offset_of_toUtc? (inside : t.toUtc? = some utc) : utc.offset = some 0 :=
  (parts_of_toUtc? inside).2.2

theorem offset_of_read {text : Text} (found : read text = .ok t) : t.offset = some 0 := by
  unfold read at found
  dsimp only at found
  split at found
  · cases found
  · split at found
    · cases found
    · cases found
    · split at found
      · rename_i inUtc
        cases found
        exact offset_of_toUtc? inUtc
      · cases found

/-- What a text is read as has a form for the end of a rule. -/
theorem normalize?_of_read {text : Text} (found : read text = .ok t) :
    t.normalize? = some t.cutMillis := by
  rw [normalize?, toUtc?_of_utc (offset_of_read found)]
  rfl

theorem instant_of_toUtc? (inside : t.toUtc? = some utc) : utc.instant = t.instant := by
  obtain ⟨seconds, micros, known⟩ := parts_of_toUtc? inside
  unfold instant
  rw [seconds, micros, known]
  simp

/-- The whole seconds of a clock are those of UTC. -/
theorem begins_of_toUtc? (inside : t.toUtc? = some utc) :
    utc.aware.cutSeconds.instant = t.aware.cutSeconds.instant := by
  obtain ⟨seconds, _, known⟩ := parts_of_toUtc? inside
  simp only [instant, cutSeconds, aware, seconds, known, Option.getD_some, Int.sub_zero]

theorem second_of_toUtc? (zoned : t.IsZoned offset) (inside : t.toUtc? = some utc) :
    utc.second = t.second := by
  obtain ⟨known, minutes, _⟩ := zoned
  obtain ⟨seconds, _, _⟩ := parts_of_toUtc? inside
  rw [known, Option.getD_some] at seconds
  unfold second secondOfDay
  omega

/-- Clocks that show the same date are apart by hours and minutes alone. -/
theorem clock_of_toUtc? (zoned : t.IsZoned offset) (inside : t.toUtc? = some utc)
    (date : t.date = utc.date) :
    (utc.hour * 60 + utc.minute) * 60 = (t.hour * 60 + t.minute) * 60 - offset ∧
      (offset % 3600 = 0 → utc.hour * 3600 = t.hour * 3600 - offset) := by
  have day : t.dayNumber = utc.dayNumber := by rw [← t.date_number, date, utc.date_number]
  obtain ⟨known, minutes, _⟩ := zoned
  obtain ⟨seconds, _, _⟩ := parts_of_toUtc? inside
  rw [known, Option.getD_some] at seconds
  unfold dayNumber at day
  unfold hour minute secondOfDay
  omega

end Recurrence.Timestamp
