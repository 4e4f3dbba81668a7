import Recurrence.Proofs.Calendar.TimestampReading
import Recurrence.Proofs.Text.Trimming

namespace Recurrence.Timestamp

open Text (padded padded_eq_cons takeNat?_padded)

theorem readOffset?_signed {sign : Char} (isSign : sign = '+' ∨ sign = '-') {hours minutes : Nat}
    (hour : hours ≤ 23) (minute : minutes ≤ 59) :
    readOffset? (sign :: (padded 2 hours ++ ':' :: padded 2 minutes)) =
      some (if sign = '-' then -(((hours * 60 + minutes) * 60 : Nat) : Int)
        else (((hours * 60 + minutes) * 60 : Nat) : Int)) := by
  have shortHours : hours < 10 ^ 2 := by omega
  have shortMinutes : minutes < 10 ^ 2 := by omega
  have front := takeNat?_padded (by decide) shortHours (':' :: padded 2 minutes)
  have back := takeNat?_padded (by decide) shortMinutes []
  rw [List.append_nil] at back
  obtain ⟨c, digits, text, _⟩ := padded_eq_cons (by decide) shortHours
  rw [text] at front ⊢
  rw [List.cons_append] at front ⊢
  have known : (guard (hours ≤ 23 ∧ minutes ≤ 59) : Option Unit) = some () := if_pos ⟨hour, minute⟩
  have marked : (guard (sign = '+' ∨ sign = '-') : Option Unit) = some () := if_pos isSign
  unfold readOffset?
  simp only [marked, front, back, known, Option.bind_eq_bind, Option.bind_some, Option.pure_def]

/-- The texts of a distance from UTC in seconds: `Z` in either case, or a sign with hours
and minutes, where no distance has either sign. -/
inductive WritesOffset : Int → Text → Prop
  | utc {mark : Char} (isMark : mark = 'Z' ∨ mark = 'z') : WritesOffset 0 [mark]
  | ahead {hours minutes : Nat} (hour : hours ≤ 23) (minute : minutes ≤ 59) :
    WritesOffset ((hours * 60 + minutes) * 60 : Nat)
      ('+' :: (padded 2 hours ++ ':' :: padded 2 minutes))
  | behind {hours minutes : Nat} (hour : hours ≤ 23) (minute : minutes ≤ 59) :
    WritesOffset (-((hours * 60 + minutes) * 60 : Nat))
      ('-' :: (padded 2 hours ++ ':' :: padded 2 minutes))

/-- The texts of the microseconds past a whole second: nothing when there are none, or a
point with any number of digits that write them exactly. -/
inductive WritesFraction : Nat → Text → Prop
  | none : WritesFraction 0 []
  | point {micros : Nat} {digits : Text} (nonempty : digits ≠ [])
    (allDigits : digits.all Text.isDigit = true)
    (value : Text.natValue digits * 10 ^ 6 = micros * 10 ^ digits.length) :
    WritesFraction micros ('.' :: digits)

/-- The texts of a clock whose distance from UTC is known: the date, a letter T of either
case or a space, the time of day with its fraction, and the distance. -/
inductive IsWrittenAs (t : Timestamp) : Text → Prop
  | intro {offset : Int} {mark : Char} {fraction zone : Text} (known : t.offset = some offset)
    (isMark : mark = 'T' ∨ mark = 't' ∨ mark = ' ') (micros : WritesFraction t.micros fraction)
    (distance : WritesOffset offset zone) :
    IsWrittenAs t (t.dateText ++ mark :: (t.clockText ++ fraction) ++ zone)

variable {t : Timestamp} {offset : Int} {zone fraction text : Text}

theorem WritesOffset.readOffset? (writes : WritesOffset offset zone) :
    readOffset? zone = some offset := by
  cases writes with
  | utc isMark => rcases isMark with rfl | rfl <;> rfl
  | ahead hour minute => exact readOffset?_signed (.inl rfl) hour minute
  | behind hour minute => exact readOffset?_signed (.inr rfl) hour minute

theorem WritesOffset.startsOffset (writes : WritesOffset offset zone) :
    ∃ c rest, zone = c :: rest ∧ startsOffset c = true := by
  cases writes with
  | utc isMark => rcases isMark with rfl | rfl <;> exact ⟨_, _, rfl, rfl⟩
  | ahead => exact ⟨_, _, rfl, rfl⟩
  | behind => exact ⟨_, _, rfl, rfl⟩

/-- The characters of a written clock: visible ones of ASCII. -/
def IsPlain (c : Char) : Prop := Text.isBlank c = false ∧ c.toNat < 128

theorem isPlain_of_isToken (tokens : text.all Text.isToken = true) : ∀ c ∈ text, IsPlain c := by
  intro c member
  have token := List.all_eq_true.mp tokens c member
  have bounds := Text.bounds_of_isToken token
  exact ⟨Text.isBlank_of_isToken token, by omega⟩

theorem WritesOffset.isPlain (writes : WritesOffset offset zone) : ∀ c ∈ zone, IsPlain c := by
  have signed {sign : Char} (token : Text.isToken sign = true) (hours minutes : Nat) :
      (sign :: (padded 2 hours ++ ':' :: padded 2 minutes)).all Text.isToken = true := by
    have colon : Text.isToken ':' = true := rfl
    simp only [List.all_cons, List.all_append, Text.all_isToken_padded, token, colon, Bool.and_self]
  cases writes with
  | utc isMark =>
    intro c member
    obtain rfl := List.mem_singleton.mp member
    rcases isMark with rfl | rfl <;> exact ⟨rfl, by decide⟩
  | ahead => exact isPlain_of_isToken (signed rfl _ _)
  | behind => exact isPlain_of_isToken (signed rfl _ _)

theorem WritesFraction.isPlain {micros : Nat} (writes : WritesFraction micros fraction) :
    ∀ c ∈ fraction, IsPlain c := by
  cases writes with
  | none => exact fun _ member => absurd member List.not_mem_nil
  | point _ allDigits =>
    refine isPlain_of_isToken ?_
    rw [List.all_cons, Text.all_isToken_of_isDigit allDigits]
    rfl

theorem WritesFraction.readFraction? {micros : Nat} (writes : WritesFraction micros fraction)
    (distance : WritesOffset offset zone) {clock : Clock} (whole : clock.micros = 0) :
    readFraction? clock (fraction ++ zone) =
      some { clock with micros := micros, offset := some offset } := by
  cases writes with
  | none =>
    rw [List.nil_append, readFraction?_zone distance.readOffset? distance.startsOffset, ← whole]
  | point nonempty allDigits value =>
    rw [List.cons_append, readFraction?_point allDigits nonempty distance.readOffset?
      distance.startsOffset, Text.millionths_of_natValue allDigits value]

theorem dateText_ne_nil (t : Timestamp) : t.dateText ≠ [] := by
  obtain ⟨c, rest, digits, _⟩ :=
    padded_eq_cons (by decide : 0 < 4) (Date.field_bounds t.date_isValid).1
  simp [dateText, digits]

/-- The text of a clock is trimmed and plain, so that reading begins at its date. -/
theorem IsWrittenAs.readTrimmed (written : t.IsWrittenAs text) : readTrimmed text = .ok t := by
  obtain ⟨known, isMark, micros, distance⟩ := written
  rename_i offset mark fraction zone
  have ascii : ((t.dateText ++ mark :: (t.clockText ++ fraction) ++ zone).all
      fun c => c.toNat < 128) = true := by
    have date := isPlain_of_isToken (all_isToken_dateText t)
    have time := isPlain_of_isToken (all_isToken_clockText t)
    have separator : mark.toNat < 128 := by rcases isMark with rfl | rfl | rfl <;> decide
    simp only [List.all_eq_true, List.mem_append, List.mem_cons, decide_eq_true_eq]
    rintro c ((inDate | rfl | inTime | inFraction) | inZone)
    · exact (date c inDate).2
    · exact separator
    · exact (time c inTime).2
    · exact (micros.isPlain c inFraction).2
    · exact (distance.isPlain c inZone).2
  have parts : t.dateText ++ mark :: (t.clockText ++ fraction) ++ zone =
      t.dateText ++ mark :: (t.clockText ++ (fraction ++ zone)) := by
    simp only [List.append_assoc, List.cons_append]
  rw [parts] at ascii ⊢
  refine readTrimmed_of_parts ascii (calendarDate?_dateText t _) (readClock?_clockText ?_)
  rw [micros.readFraction? distance rfl, writtenClock, known]

theorem IsWrittenAs.trim (written : t.IsWrittenAs text) : text.trim = text := by
  obtain ⟨known, isMark, micros, distance⟩ := written
  rename_i offset mark fraction zone
  have date (c : Char) (member : c ∈ t.dateText) : Text.isBlank c = false :=
    (isPlain_of_isToken (all_isToken_dateText t) c member).1
  have nonempty : zone ≠ [] := by
    obtain ⟨c, rest, rfl, _⟩ := distance.startsOffset
    exact List.cons_ne_nil c rest
  have between := Text.trim_between date t.dateText_ne_nil
    (fun c member => (distance.isPlain c member).1) nonempty (List.all_nil)
    (mark :: (t.clockText ++ fraction))
  rwa [List.append_nil] at between

/-- The text of a clock is read as its moment in UTC, unless that leaves the years. -/
theorem IsWrittenAs.read (written : t.IsWrittenAs text) :
    read text = match t.toUtc? with
      | some utc => .ok utc
      | none => .error (.outOfRange text) := by
  refine read_of_readTrimmed written.trim ?_ written.readTrimmed
  obtain ⟨-, -, -, -⟩ := written
  simp [t.dateText_ne_nil]

end Recurrence.Timestamp
