import Recurrence.Intake.Moment
import Recurrence.Proofs.Calendar.TimestampReading

namespace Recurrence.Intake

open Text (padded)

variable {t : Timestamp}

theorem readDate?_dateText (t : Timestamp) (rest : Text) :
    readDate? (t.dateText ++ rest) = some (t.date, rest) := by
  have valid := t.date_isValid
  obtain ⟨year, month, day⟩ := Date.field_bounds valid
  have text : t.dateText ++ rest = padded 4 t.date.year ++
      '-' :: (padded 2 t.date.month ++ '-' :: (padded 2 t.date.day ++ rest)) := by
    simp only [Timestamp.dateText, List.append_assoc, List.cons_append, List.nil_append]
  have made : Date.isValid ⟨t.date.year, t.date.month, t.date.day⟩ = true := valid
  simp [readDate?, text, Text.takeNat?_padded (by decide) year,
    Text.takeNat?_padded (by decide) month, Text.takeNat?_padded (by decide) day, made]

theorem readSeconds?_z {second : Nat} (bound : second ≤ 59) :
    readSeconds? (':' :: (padded 2 second ++ ['Z'])) = some (second, 0, ['Z']) := by
  simp [readSeconds?, Text.takeNat?_padded (show 0 < 2 by decide) (show second < 10 ^ 2 by omega)]

theorem readSeconds?_millis {second millis : Nat} (bound : second ≤ 59) (short : millis < 1000) :
    readSeconds? (':' :: (padded 2 second ++ '.' :: (padded 3 millis ++ ['Z']))) =
      some (second, millis * 1000, ['Z']) := by
  have digits : ∀ c ∈ padded 3 millis, Text.isDigit c = true :=
    List.all_eq_true.mp (Text.all_isDigit_padded 3 millis)
  have front : (padded 3 millis ++ ['Z']).takeWhile Text.isDigit = padded 3 millis := by
    rw [List.takeWhile_append_of_pos digits]
    exact List.append_nil _
  have back : (padded 3 millis ++ ['Z']).dropWhile Text.isDigit = ['Z'] :=
    List.dropWhile_append_of_pos digits
  have nonempty : padded 3 millis ≠ [] := by
    obtain ⟨c, rest, text, _⟩ : ∃ c rest, padded 3 millis = c :: rest ∧ Text.isDigit c = true :=
      Text.padded_eq_cons (by decide) short
    rw [text]
    exact List.cons_ne_nil _ _
  have value : Text.millionths (padded 3 millis) = millis * 1000 :=
    Timestamp.millionths_padded (by decide) (by decide) short
  have digit : (guard (padded 3 millis ≠ []) : Option Unit) = some () := if_pos nonempty
  simp only [readSeconds?,
    Text.takeNat?_padded (show 0 < 2 by decide) (show second < 10 ^ 2 by omega),
    Option.bind_eq_bind, Option.bind_some, true_or, if_true, front, back, digit, value]
  rfl

/-- A date and a clock that shows UTC are read as the timestamp that they belong
to, when the seconds are. -/
theorem readDateTime?_of_seconds {text : Text} (rest : Text) (utc : t.offset = some 0)
    (whole : text = t.dateText ++ 'T' :: (padded 2 t.hour ++ ':' :: (padded 2 t.minute ++ rest)))
    (seconds : readSeconds? rest = some (t.second, t.micros, ['Z'])) :
    readDateTime? text = some t := by
  obtain ⟨hour, minute, second⟩ := t.clock_bounds
  have clock : (t.hour * 60 + t.minute) * 60 + t.second = t.secondOfDay := by
    unfold Timestamp.hour Timestamp.minute Timestamp.second
    have inDay : t.secondOfDay < 86400 := Nat.mod_lt _ (by decide)
    omega
  have made := t.ofParts?_date
  rw [utc] at made
  have offset : readOffset? ['Z'] = some (some 0) := rfl
  simp [readDateTime?, whole, readDate?_dateText,
    Text.takeNat?_padded (show 0 < 2 by decide) (show t.hour < 10 ^ 2 by omega),
    Text.takeNat?_padded (show 0 < 2 by decide) (show t.minute < 10 ^ 2 by omega), seconds, offset,
    hour, minute, second, clock, made]

/-- What rules export for their end is taken in as that end. -/
theorem readMoment?_extendedText (normal : t.isNormal = true) :
    readMoment? t.extendedText = some t := by
  simp only [Timestamp.isNormal, Bool.and_eq_true, beq_iff_eq] at normal
  obtain ⟨utc, whole⟩ := normal
  have second := t.clock_bounds.2.2
  have short := t.micros_lt
  have found : readDateTime? t.extendedText = some t := by
    by_cases none : t.micros / 1000 = 0
    · refine readDateTime?_of_seconds (':' :: (padded 2 t.second ++ ['Z'])) utc ?_ ?_
      · simp only [Timestamp.extendedText, Timestamp.clockText, none, if_true, List.append_assoc,
          List.cons_append, List.nil_append]
      · rw [readSeconds?_z second, show t.micros = 0 by omega]
    · refine readDateTime?_of_seconds
        (':' :: (padded 2 t.second ++ '.' :: (padded 3 (t.micros / 1000) ++ ['Z']))) utc ?_ ?_
      · simp only [Timestamp.extendedText, Timestamp.clockText, none, if_false, List.append_assoc,
          List.cons_append, List.nil_append]
      · rw [readSeconds?_millis second (by omega), show t.micros / 1000 * 1000 = t.micros by omega]
  simp only [readMoment?, found]

end Recurrence.Intake
