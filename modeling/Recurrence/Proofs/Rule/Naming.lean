import Recurrence.Proofs.Rule.RoundTrip
import Recurrence.Proofs.Text.Capitals
import Recurrence.Validation.Basic

namespace Recurrence

open Text (isBlank isToken trim)

namespace Weekday

/-- The texts that call a day: its code, its name and the first three letters of
its name. -/
def IsCalled (day : Weekday) (t : Text) : Prop :=
  day.code = t ∨ day.name = t ∨ day.name.take 3 = t

theorem isCalled_of_ofAlias? {t : Text} {day : Weekday} (found : ofAlias? t = some day) :
    day.IsCalled t := by
  simpa [IsCalled] using List.find?_some found

theorem all_isToken_of_isCalled {day : Weekday} {t : Text} (called : day.IsCalled t) :
    t.all isToken = true := by
  rcases called with rfl | rfl | rfl <;> cases day <;> rfl

theorem ne_nil_of_isCalled {day : Weekday} {t : Text} (called : day.IsCalled t) : t ≠ [] := by
  rintro rfl
  rcases called with same | same | same <;> cases day <;> cases same

/-- Of the texts that call a day only its code is the code of a day, and only its
code ends in one. -/
theorem ofCode?_drop_of_isCalled {day : Weekday} {t : Text} (called : day.IsCalled t) :
    2 ≤ t.length ∧
      ofCode? (t.drop (t.length - 2)) = if t = day.code then some day else none := by
  rcases called with rfl | rfl | rfl <;> cases day <;> decide

theorem ofCode?_of_isCalled {day : Weekday} {t : Text} (called : day.IsCalled t) :
    ofCode? t = if t = day.code then some day else none := by
  rcases called with rfl | rfl | rfl <;> cases day <;> decide

theorem isSome_ofCode?_of_isCalled {day : Weekday} {t : Text} (called : day.IsCalled t) :
    (ofCode? t).isSome = true ↔ t = day.code := by
  rw [ofCode?_of_isCalled called]
  split <;> simp_all

end Weekday

namespace Datum

/-- A value that names a frequency is written as the name, with the blanks that
the value has around it. -/
theorem token_of_toFrequency {d : Datum} {f : Frequency} (named : d.toFrequency = .ok f) :
    ∃ front back : Text, front.all isBlank = true ∧ back.all isBlank = true ∧
      d.token = front ++ f.name ++ back := by
  cases d with
  | frequency g =>
    cases named
    exact ⟨[], [], rfl, rfl, by simp⟩
  | str t =>
    obtain ⟨front, back, blankFront, blankBack, whole⟩ := Text.exists_blanks_around t
    refine ⟨front, back, blankFront, blankBack, ?_⟩
    simp only [toFrequency, asText?, Option.bind_some] at named
    split at named
    · rename_i found
      cases named
      rw [token_str, Frequency.name_of_ofName? found,
        ← Text.upper_blanks_around blankFront blankBack, ← whole]
    · cases named
  | weekday day => cases day <;> cases named
  | _ => cases named

/-- Whether a value names a weekday by its code, in any case and with any blanks
around it. -/
def isCode (d : Datum) : Bool :=
  (d.asText?.bind fun t => Weekday.ofCode? (Text.upper (trim t))).isSome

/-- Whether the text that a value is begins with a blank. -/
def beginsBlank (d : Datum) : Bool := d.asText?.any fun t => t.head?.any isBlank

/-- A value that names a day is written as a text that calls the day, with the
blanks that the value has around it. -/
structure CallsDay (d : Datum) (day : Weekday) (front name back : Text) : Prop where
  blankFront : front.all isBlank = true
  called : day.IsCalled name
  blankBack : back.all isBlank = true
  token : d.token = front ++ name ++ back
  isCode : d.isCode = true ↔ name = day.code
  beginsBlank : d.beginsBlank = true ↔ front ≠ []

theorem exists_callsDay {d : Datum} {day : Weekday} (named : d.toWeekday = .ok day) :
    ∃ front name back, d.CallsDay day front name back := by
  cases d with
  | weekday other =>
    cases named
    refine ⟨[], day.code, [], rfl, .inl rfl, rfl, by simp, ?_, ?_⟩ <;> cases day <;> decide
  | str t =>
    obtain ⟨front, back, blankFront, blankBack, whole⟩ := Text.exists_blanks_around t
    simp only [toWeekday, asText?, Option.bind_some] at named
    split at named
    · rename_i found
      cases named
      have called := Weekday.isCalled_of_ofAlias? found
      refine ⟨front, _, back, blankFront, called, blankBack, ?_, ?_, ?_⟩
      · rw [token_str, ← Text.upper_blanks_around blankFront blankBack, ← whole]
      · exact Weekday.isSome_ofCode?_of_isCalled called
      · have first := Text.head?_blanks_around blankFront
          (Weekday.all_isToken_of_isCalled called) (Weekday.ne_nil_of_isCalled called) back
        rwa [← whole] at first
    · cases named
  | frequency f => cases f <;> cases named
  | _ => cases named

theorem notMem_token_of_toFrequency {d : Datum} {f : Frequency} (named : d.toFrequency = .ok f)
    {c : Char} (separator : isToken c = false) (visible : isBlank c = false) : c ∉ d.token := by
  obtain ⟨front, back, blankFront, blankBack, token⟩ := token_of_toFrequency named
  rw [token]
  exact Text.notMem_blanks_around separator visible blankFront f.all_isToken_name blankBack

theorem notMem_token_of_toWeekday {d : Datum} {day : Weekday} (named : d.toWeekday = .ok day)
    {c : Char} (separator : isToken c = false) (visible : isBlank c = false) : c ∉ d.token := by
  obtain ⟨front, name, back, calls⟩ := exists_callsDay named
  rw [calls.token]
  exact Text.notMem_blanks_around separator visible calls.blankFront
    (Weekday.all_isToken_of_isCalled calls.called) calls.blankBack

end Datum

namespace Rule

/-- Whatever names a frequency is written as a text that names it. -/
theorem readValue_token_frequency (limits : Limits) {d : Datum} {f : Frequency}
    (named : d.toFrequency = .ok f) :
    readValue limits .frequency (trim d.token) = .ok (.frequency f) := by
  obtain ⟨front, back, blankFront, blankBack, token⟩ := Datum.token_of_toFrequency named
  rw [token, Text.trim_blanks_around blankFront f.all_isToken_name blankBack]
  have read := readValue_name limits f
  rwa [Text.trim_of_isToken f.all_isToken_name] at read

/-- What names a weekday is written as a text that names the start of the week
just when it is the code of the day. -/
theorem readValue_token_weekStart (limits : Limits) {d : Datum} {day : Weekday}
    (named : d.toWeekday = .ok day) :
    readValue limits .weekStart (trim d.token) =
      if d.isCode = true then .ok (.weekStart day)
      else .error (.invalidWeekStart (trim d.token)) := by
  obtain ⟨front, name, back, calls⟩ := Datum.exists_callsDay named
  have tokens := Weekday.all_isToken_of_isCalled calls.called
  have text : trim d.token = name := by
    rw [calls.token, Text.trim_blanks_around calls.blankFront tokens calls.blankBack]
  simp only [text, calls.isCode, readValue, Text.upper_of_isToken tokens,
    Weekday.ofCode?_of_isCalled calls.called]
  split <;> simp_all

end Rule

end Recurrence
