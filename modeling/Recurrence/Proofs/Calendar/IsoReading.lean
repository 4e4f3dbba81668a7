import Recurrence.Calendar.TimestampText
import Recurrence.Proofs.Calendar.WrittenClock

namespace Recurrence.Timestamp

open Text (padded)

/-- Whether a clock is known to be ahead of UTC, or behind it, by whole minutes and
by less than a day. -/
def IsZoned (t : Timestamp) (offset : Int) : Prop :=
  t.offset = some offset ∧ offset % 60 = 0 ∧ offset.natAbs < 86400

/-- A distance of whole minutes is written with its sign. -/
theorem writesOffset_offsetText {offset : Int} (minutes : offset % 60 = 0)
    (day : offset.natAbs < 86400) : WritesOffset offset (offsetText (some offset)) := by
  have whole : offset.natAbs % 60 = 0 := by omega
  have text : offsetText (some offset) = (if offset < 0 then '-' else '+') ::
      (padded 2 (offset.natAbs / 3600) ++ ':' :: padded 2 (offset.natAbs / 60 % 60)) := by
    simp only [offsetText, whole, if_true, List.append_assoc, List.cons_append, List.nil_append]
  have hour : offset.natAbs / 3600 ≤ 23 := by omega
  have minute : offset.natAbs / 60 % 60 ≤ 59 := by omega
  have parts : (offset.natAbs / 3600 * 60 + offset.natAbs / 60 % 60) * 60 = offset.natAbs := by omega
  rw [text]
  by_cases behind : offset < 0
  · have writes := WritesOffset.behind hour minute
    have same : -(offset.natAbs : Int) = offset := by omega
    rw [parts, same] at writes
    rwa [if_pos behind]
  · have writes := WritesOffset.ahead hour minute
    have same : (offset.natAbs : Int) = offset := by omega
    rw [parts, same] at writes
    rwa [if_neg behind]

theorem writesFraction_microsText (t : Timestamp) : WritesFraction t.micros t.microsText := by
  unfold microsText
  split
  · rename_i whole
    rw [whole]
    exact .none
  · have short := t.micros_lt
    have length := Text.length_padded (by decide) (by omega : t.micros < 10 ^ 6)
    refine .point ?_ (Text.all_isDigit_padded 6 _) ?_
    · exact List.ne_nil_of_length_pos (by omega)
    · rw [Text.natValue_padded, length]

/-- The form of answers is a text of its clock. -/
theorem isWrittenAs_isoText {t : Timestamp} {offset : Int} (zoned : t.IsZoned offset) :
    t.IsWrittenAs t.isoText := by
  obtain ⟨known, minutes, day⟩ := zoned
  have written := IsWrittenAs.intro known (.inl rfl) t.writesFraction_microsText
    (writesOffset_offsetText minutes day)
  have text : t.isoText =
      t.dateText ++ 'T' :: (t.clockText ++ t.microsText) ++ offsetText (some offset) := by
    simp only [isoText, textWith, known, List.append_assoc, List.cons_append, List.nil_append]
  rwa [text]

/-- The form of answers is read as the same moment in UTC, if that is within the years. -/
theorem read_isoText {t utc : Timestamp} {offset : Int} (zoned : t.IsZoned offset)
    (inside : t.toUtc? = some utc) : read t.isoText = .ok utc := by
  rw [(isWrittenAs_isoText zoned).read, inside]

/-- The extended form is a text of its clock. -/
theorem isWrittenAs_extendedText {t : Timestamp} (normal : t.isNormal = true) :
    t.IsWrittenAs t.extendedText := by
  simp only [isNormal, Bool.and_eq_true, beq_iff_eq] at normal
  obtain ⟨utc, whole⟩ := normal
  have fraction : WritesFraction t.micros
      (if t.micros / 1000 = 0 then [] else '.' :: padded 3 (t.micros / 1000)) := by
    split
    · have none : t.micros = 0 := by omega
      rw [none]
      exact .none
    · have short := t.micros_lt
      have length := Text.length_padded (by decide) (by omega : t.micros / 1000 < 10 ^ 3)
      refine .point ?_ (Text.all_isDigit_padded 3 _) ?_
      · exact List.ne_nil_of_length_pos (by omega)
      · rw [Text.natValue_padded, length]
        omega
  have written := IsWrittenAs.intro utc (.inl rfl) fraction (.utc (.inl rfl))
  have text : t.extendedText = t.dateText ++ 'T' :: (t.clockText ++
      if t.micros / 1000 = 0 then [] else '.' :: padded 3 (t.micros / 1000)) ++ ['Z'] := by
    simp only [extendedText, List.append_assoc, List.cons_append, List.nil_append]
  rwa [text]

/-- The extended form is read as the moment that it was written for. -/
theorem read_extendedText {t : Timestamp} (normal : t.isNormal = true) :
    read t.extendedText = .ok t := by
  rw [(isWrittenAs_extendedText normal).read, toUtc?_of_isNormal normal]

/-- The compact form is read as the moment that it was written for. -/
theorem read_basicText {t : Timestamp} (utc : t.offset = some 0) (whole : t.micros = 0) :
    read t.basicText = .ok t := by
  obtain ⟨hour, minute, second⟩ := t.clock_bounds
  have tokens := all_isToken_utcText true t
  have none : (t.micros / 1000 == 0) = true := by rw [whole]; rfl
  simp only [utcText, none, Bool.and_self, if_true] at tokens
  have text : t.basicText = padded 4 t.date.year ++ (padded 2 t.date.month ++ (padded 2 t.date.day ++
      'T' :: (padded 2 t.hour ++ (padded 2 t.minute ++ (padded 2 t.second ++ ['Z']))))) := by
    simp only [basicText, List.append_assoc, List.cons_append, List.nil_append]
  rw [text] at tokens ⊢
  refine read_of_parts (toUtc?_of_utc utc) tokens (calendarDate?_compact t.date_isValid _)
    (readClock?_of_digits hour ?_ hour)
  rw [readMinute?_compact minute, readSecond?_compact second, readFraction?_z, writtenClock, whole,
    utc]

/-- What rules write for their end is read as that end, in both forms. -/
theorem read_utcText (basic : Bool) {t : Timestamp} (normal : t.isNormal = true) :
    read (t.utcText basic) = .ok t := by
  unfold utcText
  split
  · rename_i compact
    have parts := normal
    simp only [isNormal, Bool.and_eq_true, beq_iff_eq] at parts compact
    exact read_basicText parts.1 (by omega)
  · exact read_extendedText normal

end Recurrence.Timestamp
