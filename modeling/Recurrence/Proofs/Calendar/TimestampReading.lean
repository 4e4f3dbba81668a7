import Recurrence.Calendar.TimestampGrammar
import Recurrence.Calendar.TimestampText
import Recurrence.Proofs.Calendar.TimestampParts
import Recurrence.Proofs.Text.Tokens

namespace Recurrence.Timestamp

open Text (padded padded_eq_cons takeNat?_padded)

theorem startsOffset_of_isDigit {c : Char} (digit : Text.isDigit c = true) :
    startsOffset c = false := by
  have not (other : Char) (noDigit : Text.isDigit other = false) : c ≠ other := by
    rintro rfl
    rw [digit] at noDigit
    cases noDigit
  simp only [startsOffset, not '-' rfl, not '+' rfl, not 'Z' rfl, not 'z' rfl, decide_false,
    Bool.or_self]

theorem calendarDate?_dashed {d : Date} (valid : d.isValid = true) (rest : Text) :
    calendarDate? (padded 4 d.year ++ '-' :: (padded 2 d.month ++ '-' :: (padded 2 d.day ++ rest))) =
      some (d, rest) := by
  obtain ⟨year, month, day⟩ := Date.field_bounds valid
  simp only [calendarDate?, takeNat?_padded (by decide) year, takeNat?_padded (by decide) month,
    takeNat?_padded (by decide) day, Option.bind_eq_bind, Option.bind_some, Option.pure_def]

theorem calendarDate?_compact {d : Date} (valid : d.isValid = true) (rest : Text) :
    calendarDate? (padded 4 d.year ++ (padded 2 d.month ++ (padded 2 d.day ++ rest))) =
      some (d, rest) := by
  obtain ⟨year, month, day⟩ := Date.field_bounds valid
  obtain ⟨c, digits, text, digit⟩ := padded_eq_cons (by decide) month
  have noDash : c ≠ '-' := by
    rintro rfl
    cases digit
  have readMonth := takeNat?_padded (by decide) month (padded 2 d.day ++ rest)
  rw [text] at readMonth ⊢
  simp only [calendarDate?, takeNat?_padded (by decide) year, Option.bind_eq_bind, Option.bind_some,
    List.cons_append] at readMonth ⊢
  split
  · rename_i same
    cases same
  · rename_i same
    cases same
    exact absurd rfl noDash
  · simp only [readMonth, takeNat?_padded (by decide) day, Option.bind_some, Option.pure_def]

theorem readClock?_of_digits {hour : Nat} (bound : hour ≤ 23) {rest : Text} {clock : Clock}
    (read : readMinute? { hour := hour } rest = some clock) (kept : clock.hour ≤ 23) :
    readClock? (padded 2 hour ++ rest) = some clock := by
  have short : hour < 10 ^ 2 := by omega
  obtain ⟨c, digits, text, digit⟩ := padded_eq_cons (by decide) short
  have long : 2 ≤ (padded 2 hour ++ rest).length := by
    rw [List.length_append, Text.length_padded (by decide) short]
    omega
  have front := takeNat?_padded (by decide) short rest
  have early : clock.hour ≠ 24 := by omega
  rw [text, List.cons_append] at front long ⊢
  simp only [readClock?, long, guard_true, startsOffset_of_isDigit digit, Bool.false_eq_true,
    if_false, front, Option.bind_eq_bind, Option.bind_some, Option.pure_def, read, early, ne_eq,
    not_false_eq_true, true_or]

theorem readMinute?_colon {clock : Clock} {minute : Nat} (bound : minute ≤ 59) (rest : Text) :
    readMinute? clock (':' :: (padded 2 minute ++ rest)) =
      readSecond? { clock with minute := minute } true rest := by
  have short : minute < 10 ^ 2 := by omega
  have noOffset : startsOffset ':' = false := rfl
  simp only [readMinute?, noOffset, Bool.false_eq_true, if_false, if_true,
    takeNat?_padded (by decide) short, Option.bind_eq_bind, Option.bind_some]

theorem readSecond?_colon {clock : Clock} {second : Nat} (bound : second ≤ 59) (rest : Text) :
    readSecond? clock true (':' :: (padded 2 second ++ rest)) =
      readFraction? { clock with second := second } rest := by
  have short : second < 10 ^ 2 := by omega
  have noOffset : startsOffset ':' = false := rfl
  simp only [readSecond?, noOffset, Bool.false_eq_true, if_false, if_true,
    takeNat?_padded (by decide) short, Option.bind_eq_bind, Option.bind_some]

theorem readMinute?_compact {clock : Clock} {minute : Nat} (bound : minute ≤ 59) (rest : Text) :
    readMinute? clock (padded 2 minute ++ rest) =
      readSecond? { clock with minute := minute } false rest := by
  have short : minute < 10 ^ 2 := by omega
  obtain ⟨c, digits, text, digit⟩ := padded_eq_cons (by decide) short
  have noColon : c ≠ ':' := by
    rintro rfl
    cases digit
  have front := takeNat?_padded (by decide) short rest
  rw [text, List.cons_append] at front ⊢
  simp only [readMinute?, startsOffset_of_isDigit digit, Bool.false_eq_true, noColon, if_false,
    front, Option.bind_eq_bind, Option.bind_some]

theorem readSecond?_compact {clock : Clock} {second : Nat} (bound : second ≤ 59) (rest : Text) :
    readSecond? clock false (padded 2 second ++ rest) =
      readFraction? { clock with second := second } rest := by
  have short : second < 10 ^ 2 := by omega
  obtain ⟨c, digits, text, digit⟩ := padded_eq_cons (by decide) short
  have front := takeNat?_padded (by decide) short rest
  rw [text, List.cons_append] at front ⊢
  simp only [readSecond?, startsOffset_of_isDigit digit, Bool.false_eq_true, if_false,
    front, Option.bind_eq_bind, Option.bind_some]

/-- The clock of a timestamp in the form that reading gives it. -/
def writtenClock (t : Timestamp) : Clock where
  hour := t.hour
  minute := t.minute
  second := t.second
  micros := t.micros
  offset := t.offset

theorem assemble_of_fits {date : Date} {clock : Clock} {t : Timestamp}
    (valid : date.isValid = true) (hour : clock.hour ≤ 23) (minute : clock.minute ≤ 59)
    (second : clock.second ≤ 59)
    (made : make? ((date.number - 1) * 86400 + (clock.hour * 60 + clock.minute) * 60 +
      clock.second : Nat) clock.micros clock.offset = some t) :
    assemble date clock = .ok t := by
  have early : ¬clock.hour = 24 := by omega
  have fits : ¬¬(date.isValid = true ∧ clock.hour ≤ 23 ∧ clock.minute ≤ 59 ∧ clock.second ≤ 59) :=
    not_not_intro ⟨valid, hour, minute, second⟩
  unfold assemble
  dsimp only
  rw [if_neg early, if_neg early, if_neg fits, made]
  rfl

theorem assemble_writtenClock (t : Timestamp) : assemble t.date t.writtenClock = .ok t := by
  obtain ⟨hour, minute, second⟩ := t.clock_bounds
  refine assemble_of_fits t.date_isValid hour minute second ?_
  have whole : (t.date.number - 1) * 86400 + (t.hour * 60 + t.minute) * 60 + t.second =
      t.seconds := by
    rw [t.date_number, ← t.seconds_eq]
  simp only [writtenClock, whole, t.make?_seconds]

theorem readTrimmed_of_parts {t : Timestamp} {text rest : Text} {mark : Char}
    (ascii : (text.all fun c => c.toNat < 128) = true)
    (date : calendarDate? text = some (t.date, mark :: rest))
    (clock : readClock? rest = some t.writtenClock) : readTrimmed text = .ok t := by
  simp only [readTrimmed, ascii, not_true, if_false, readDate, date, bind, Except.bind, clock, need]
  exact t.assemble_writtenClock

/-- A text is read as the moment of the clock that it writes, unless UTC is then outside of
the years. -/
theorem read_of_readTrimmed {t : Timestamp} {text : Text} (trimmed : text.trim = text)
    (nonempty : text ≠ []) (made : readTrimmed text = .ok t) :
    read text = match t.toUtc? with
      | some utc => .ok utc
      | none => .error (.outOfRange text) := by
  have shown : text.isEmpty = false := List.isEmpty_eq_false_iff.mpr nonempty
  cases utc : t.toUtc? <;>
    simp only [read, trimmed, shown, Bool.false_eq_true, if_false, made, utc]

/-- The text of a clock whose moment in UTC is within the years is read as that
moment. -/
theorem read_of_parts {t utc : Timestamp} {text rest : Text} (inside : t.toUtc? = some utc)
    (tokens : text.all Text.isToken = true) (date : calendarDate? text = some (t.date, 'T' :: rest))
    (clock : readClock? rest = some t.writtenClock) : read text = .ok utc := by
  have nonempty : text ≠ [] := by
    rintro rfl
    cases date
  have made := readTrimmed_of_parts (Text.isAscii_of_isToken tokens) date clock
  rw [read_of_readTrimmed (Text.trim_of_isToken tokens) nonempty made, inside]

theorem readClock?_clockText {t : Timestamp} {rest : Text}
    (tail : readFraction? { hour := t.hour, minute := t.minute, second := t.second } rest =
      some t.writtenClock) : readClock? (t.clockText ++ rest) = some t.writtenClock := by
  obtain ⟨hour, minute, second⟩ := t.clock_bounds
  have text : t.clockText ++ rest =
      padded 2 t.hour ++ ':' :: (padded 2 t.minute ++ ':' :: (padded 2 t.second ++ rest)) := by
    simp only [clockText, List.append_assoc, List.cons_append, List.nil_append]
  rw [text]
  refine readClock?_of_digits hour ?_ hour
  rw [readMinute?_colon minute, readSecond?_colon second, tail]

theorem readFraction?_zone {clock : Clock} {zone : Text} {offset : Int}
    (known : readOffset? zone = some offset) (starts : ∃ c rest, zone = c :: rest ∧ startsOffset c) :
    readFraction? clock zone = some { clock with offset := some offset } := by
  obtain ⟨c, rest, rfl, starts⟩ := starts
  have noMark : ¬(c = '.' ∨ c = ',') := by
    rintro (rfl | rfl) <;> cases starts
  simp only [readFraction?, noMark, false_and, if_false, starts, if_true, readClockEnd?, known,
    Option.map_some]

/-- A fraction ends where the distance from UTC begins. -/
theorem readFraction?_point {clock : Clock} {digits zone : Text} {offset : Int}
    (allDigits : digits.all Text.isDigit = true) (nonempty : digits ≠ [])
    (known : readOffset? zone = some offset)
    (starts : ∃ c rest, zone = c :: rest ∧ startsOffset c) :
    readFraction? clock ('.' :: (digits ++ zone)) =
      some { clock with micros := Text.millionths digits, offset := some offset } := by
  obtain ⟨c, rest, rfl, starts⟩ := starts
  have noDigit : Text.isDigit c = false := by
    cases digit : Text.isDigit c with
    | false => rfl
    | true =>
      rw [startsOffset_of_isDigit digit] at starts
      cases starts
  rw [List.all_eq_true] at allDigits
  have front : (digits ++ c :: rest).takeWhile Text.isDigit = digits := by
    rw [List.takeWhile_append_of_pos allDigits, List.takeWhile_cons, noDigit]
    simp
  have back : (digits ++ c :: rest).dropWhile Text.isDigit = c :: rest := by
    rw [List.dropWhile_append_of_pos allDigits, List.dropWhile_cons, noDigit]
    simp
  simp only [readFraction?, front, back, nonempty, ne_eq, not_false_eq_true, and_self, true_or,
    if_true, readClockEnd?, known, Option.map_some]

theorem millionths_padded {width n : Nat} (positive : 0 < width) (short : width ≤ 6)
    (bound : n < 10 ^ width) : Text.millionths (padded width n) = n * 10 ^ (6 - width) := by
  have length := Text.length_padded positive bound
  have all : (padded width n).take 6 = padded width n :=
    List.take_of_length_le (by rw [length]; exact short)
  simp only [Text.millionths, all, length, Text.natValue_padded, Text.tenTo, Nat.pow_eq]

theorem all_isToken_dateText (t : Timestamp) : t.dateText.all Text.isToken = true := by
  have dash : Text.isToken '-' = true := rfl
  simp only [dateText, List.all_append, Text.all_isToken_padded, List.all_cons, List.all_nil, dash,
    Bool.and_self]

theorem all_isToken_clockText (t : Timestamp) : t.clockText.all Text.isToken = true := by
  have colon : Text.isToken ':' = true := rfl
  simp only [clockText, List.all_append, Text.all_isToken_padded, List.all_cons, List.all_nil,
    colon, Bool.and_self]

theorem all_isToken_utcText (basic : Bool) (t : Timestamp) :
    (t.utcText basic).all Text.isToken = true := by
  have marks : [['T'], ['Z'], ['.']].all (fun mark => mark.all Text.isToken) = true := rfl
  simp only [List.all_cons, List.all_nil, Bool.and_true, Bool.and_eq_true] at marks
  unfold utcText
  split
  · simp only [basicText, List.all_append, Text.all_isToken_padded, List.all_cons, List.all_nil,
      marks, Bool.and_self]
  · simp only [extendedText, List.all_append, all_isToken_dateText, all_isToken_clockText,
      List.all_cons, List.all_nil, marks, Bool.and_self, Bool.true_and, Bool.and_true]
    split <;> simp only [List.all_nil, List.all_cons, marks, Text.all_isToken_padded, Bool.and_self]

theorem calendarDate?_dateText (t : Timestamp) (rest : Text) :
    calendarDate? (t.dateText ++ rest) = some (t.date, rest) := by
  have text : t.dateText ++ rest = padded 4 t.date.year ++
      '-' :: (padded 2 t.date.month ++ '-' :: (padded 2 t.date.day ++ rest)) := by
    simp only [dateText, List.append_assoc, List.cons_append, List.nil_append]
  rw [text, calendarDate?_dashed t.date_isValid]

theorem readOffset?_z : readOffset? ['Z'] = some 0 := rfl

theorem readFraction?_z (clock : Clock) :
    readFraction? clock ['Z'] = some { clock with offset := some 0 } :=
  readFraction?_zone readOffset?_z ⟨'Z', [], rfl, rfl⟩

end Recurrence.Timestamp
