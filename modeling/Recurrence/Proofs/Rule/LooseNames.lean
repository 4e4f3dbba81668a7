import Recurrence.Proofs.Rule.ChoiceText
import Recurrence.Proofs.Rule.Settled

namespace Recurrence.Rule

open Text (trim)

/-- Whether the rule names the start of the week and all weekdays by their codes. -/
def namesDaysByCode (r : Rule) : Bool :=
  r.weekStart.isCode && r.weekdays.all isCodedOccurrence

theorem undivided_occurrenceText {values choices : List Datum}
    (read : readChoices values = .ok choices) {c : Char} (separator : Text.isToken c = false)
    (visible : Text.isBlank c = false) (word : c ∉ Datum.none.text) :
    ∀ text ∈ values.map occurrenceText, c ∉ text := by
  intro text member
  obtain ⟨d, among, rfl⟩ := List.mem_map.mp member
  rw [readChoices_eq] at read
  obtain ⟨choice, first⟩ := Outcome.mapM_ok_iff.mp ⟨_, read⟩ d among
  exact notMem_occurrenceText first separator visible word

/-- The texts of valid weekday occurrences are a list that is read item by item. -/
theorem readList_join_occurrenceText {limits : Limits} {values choices : List Datum}
    (read : readChoices values = .ok choices) (nonempty : values ≠ [])
    (few : values.length ≤ limits.maxListItems) :
    readList limits .weekday (trim (Text.join [','] (values.map occurrenceText))) =
      readItems .weekday ((values.map occurrenceText).map trim) := by
  have present : values.map occurrenceText ≠ [] := by simpa using nonempty
  have short : (values.map occurrenceText).length ≤ limits.maxListItems := by
    rwa [List.length_map]
  exact readList_join present short (undivided_occurrenceText read rfl rfl (by decide))

section

variable {r : Rule} {schedule : Schedule} {limits : Limits} {form : EndForm}

theorem valueText?_weekday (present : r.weekdays ≠ []) :
    r.valueText? form (.list .weekday) =
      some (Text.join [','] (r.weekdays.map occurrenceText)) :=
  if_neg fun empty => present (List.isEmpty_iff.mp empty)

theorem FitsText.readValue_weekday (fits : r.FitsText limits schedule) (present : r.weekdays ≠ []) :
    readValue limits (.list .weekday) (trim (Text.join [','] (r.weekdays.map occurrenceText))) =
      (readItems .weekday ((r.weekdays.map occurrenceText).map trim)).map (Setting.list .weekday) :=
  congrArg (Except.map (Setting.list .weekday))
    (readList_join_occurrenceText fits.settles.weekdays present (fits.few .weekday))

/-- The parts that a rule and its settled rule may hold differently. -/
def isNamed (part : Part) : Prop :=
  part = .frequency ∨ part = .weekStart ∨ part = .list .weekday

theorem valueText?_settledAs (r : Rule) (schedule : Schedule) (form : EndForm) {part : Part}
    (numeric : ¬isNamed part) :
    (r.settledAs schedule).valueText? form part = r.valueText? form part := by
  cases part with
  | frequency => exact absurd (.inl rfl) numeric
  | weekStart => exact absurd (.inr (.inl rfl)) numeric
  | list part =>
    cases part with
    | weekday => exact absurd (.inr (.inr rfl)) numeric
    | _ => rfl
  | _ => rfl

/-- No value of a rule that fits a text is written with a semicolon. -/
theorem FitsText.undivided (fits : r.FitsText limits schedule) (part : Part) (value : Text)
    (written : r.valueText? form part = some value) : ';' ∉ value := by
  by_cases named : isNamed part
  · rcases named with rfl | rfl | rfl
    · cases written
      exact Datum.notMem_token_of_toFrequency fits.settles.frequency rfl rfl
    · rw [valueText?] at written
      split at written <;> cases written
      exact Datum.notMem_token_of_toWeekday fits.settles.weekStart rfl rfl
    · rw [valueText?] at written
      split at written <;> cases written
      exact Text.notMem_join (by decide)
        (undivided_occurrenceText fits.settles.weekdays rfl rfl (by decide))
  · rw [← valueText?_settledAs r schedule form named] at written
    exact (readValue_valueText? fits.isReadable form written).1

/-- Where the days are named by code, each value is read as the settled one. -/
theorem FitsText.readValue_settled (fits : r.FitsText limits schedule)
    (weekStart : r.weekStart.isCode = true) (weekdays : r.weekdays.all isCodedOccurrence = true)
    {part : Part} {value : Text} (written : r.valueText? form part = some value) :
    ∃ setting, readValue limits part (trim value) = .ok setting ∧ setting.part = part ∧
      setting.value = (r.settledAs schedule).draft part := by
  by_cases named : isNamed part
  · rcases named with rfl | rfl | rfl
    · cases written
      exact ⟨_, readValue_token_frequency limits fits.settles.frequency, rfl, rfl⟩
    · rw [valueText?] at written
      split at written <;> cases written
      refine ⟨.weekStart schedule.weekStart, ?_, rfl, rfl⟩
      rw [readValue_token_weekStart limits fits.settles.weekStart, if_pos weekStart]
    · rw [valueText?] at written
      split at written <;> cases written
      rename_i nonempty
      have present : r.weekdays ≠ [] := fun empty => nonempty (List.isEmpty_iff.mpr empty)
      have items := (readItems_occurrenceText fits.settles.weekdays fits.holds).1 weekdays
      refine ⟨.list .weekday (schedule.weekdays.map DayChoice.toDatum), ?_, rfl, rfl⟩
      have list := fits.readValue_weekday present
      rw [items] at list
      exact list
  · rw [← valueText?_settledAs r schedule form named] at written
    exact (readValue_valueText? fits.isReadable form written).2

/-- What is left out of the text is the default of the settled rule. -/
theorem FitsText.default_settled (fits : r.FitsText limits schedule) {part : Part}
    (missing : r.valueText? form part = none) :
    (r.settledAs schedule).draft part = Draft.default part := by
  by_cases named : isNamed part
  · rcases named with rfl | rfl | rfl
    · cases missing
    · rw [valueText?] at missing
      split at missing
      · rename_i monday
        have read := readValue_token_weekStart limits fits.settles.weekStart
        rw [monday, readValue_code limits .monday] at read
        split at read
        · have same : .monday = schedule.weekStart := Setting.weekStart.inj (Except.ok.inj read)
          exact congrArg Datum.weekday same.symm
        · cases read
      · cases missing
    · rw [valueText?] at missing
      split at missing
      · rename_i empty
        have none : r.weekdays = [] := List.isEmpty_iff.mp empty
        have read := fits.settles.weekdays
        rw [none] at read
        exact congrArg Datum.tuple (Except.ok.inj read).symm
      · cases missing
  · rw [← valueText?_settledAs r schedule form named] at missing
    exact draft_of_valueText?_eq_none fits.isReadable missing

/-- A rule that names its days by code is read back from its text as the settled
rule. -/
theorem FitsText.read_print (fits : r.FitsText limits schedule)
    (short : (r.print form).length ≤ limits.maxTextLength) (coded : r.namesDaysByCode = true) :
    read limits (r.print form) = .ok (r.settledAs schedule) := by
  obtain ⟨weekStart, weekdays⟩ := Bool.and_eq_true_iff.mp coded
  refine read_print_of_values short (fun part value written => ?_) fun _ => fits.default_settled
  exact ⟨fits.undivided part value written, fits.readValue_settled weekStart weekdays written⟩

theorem FitsText.isCode_weekStart (fits : r.FitsText limits schedule)
    (readable : ∀ value, r.valueText? form .weekStart = some value →
      ∃ setting, readValue limits .weekStart (trim value) = .ok setting) :
    r.weekStart.isCode = true := by
  have text := readValue_token_weekStart limits fits.settles.weekStart
  have made : ∃ setting, readValue limits .weekStart (trim r.weekStart.token) = .ok setting := by
    by_cases monday : r.weekStart.token = Weekday.monday.code
    · rw [monday]
      exact ⟨_, readValue_code limits .monday⟩
    · exact readable _ (by rw [valueText?, if_neg monday])
  obtain ⟨setting, made⟩ := made
  rw [text] at made
  split at made
  · assumption
  · cases made

theorem FitsText.areCoded_weekdays (fits : r.FitsText limits schedule)
    (readable : ∀ value, r.valueText? form (.list .weekday) = some value →
      ∃ setting, readValue limits (.list .weekday) (trim value) = .ok setting) :
    r.weekdays.all isCodedOccurrence = true := by
  by_cases present : r.weekdays = []
  · rw [present]
    rfl
  · obtain ⟨setting, made⟩ := readable _ (valueText?_weekday present)
    rw [fits.readValue_weekday present] at made
    cases items : readItems .weekday ((r.weekdays.map occurrenceText).map trim) with
    | error e =>
      rw [items] at made
      cases made
    | ok found =>
      exact (readItems_occurrenceText fits.settles.weekdays fits.holds).2 found items

/-- A rule whose text is read back names its days by code. -/
theorem FitsText.namesDaysByCode (fits : r.FitsText limits schedule) {back : Rule}
    (short : (r.print form).length ≤ limits.maxTextLength)
    (given : read limits (r.print form) = .ok back) : r.namesDaysByCode = true := by
  have readable (part : Part) (value : Text) (written : r.valueText? form part = some value) :
      ∃ setting, readValue limits part (trim value) = .ok setting :=
    readValue_of_read_print short fits.undivided given written
  have weekStart := fits.isCode_weekStart (readable .weekStart)
  have weekdays := fits.areCoded_weekdays (readable (.list .weekday))
  exact Bool.and_eq_true_iff.mpr ⟨weekStart, weekdays⟩

end

/-- The text of a valid rule is read back just when the rule names its days by
code, and then it has the schedule of the rule. -/
theorem read_print_of_validate {limits : Limits} {form : EndForm} {r : Rule} {start : Datum}
    (valid : r.validate start = .ok ()) (count : ∀ n : Int, r.count = .int n → n < 2 ^ 32)
    (few : ∀ part, (r.values part).length ≤ limits.maxListItems)
    (short : (r.print form).length ≤ limits.maxTextLength) :
    ((∃ back, read limits (r.print form) = .ok back) ↔ r.namesDaysByCode = true) ∧
      ∀ back, read limits (r.print form) = .ok back →
        ∃ schedule, back.toSchedule = .ok schedule ∧ r.toSchedule = .ok schedule := by
  obtain ⟨moment, schedule, _, settles, checked⟩ := validate_ok_iff.mp valid
  have fits : r.FitsText limits schedule := ⟨settles, ⟨_, settles.isSound checked⟩, count, few⟩
  refine ⟨⟨?_, ?_⟩, ?_⟩
  · rintro ⟨back, given⟩
    exact fits.namesDaysByCode short given
  · intro coded
    exact ⟨_, fits.read_print short coded⟩
  · intro back given
    have coded := fits.namesDaysByCode short given
    rw [fits.read_print short coded] at given
    cases given
    exact ⟨schedule, toSchedule_ok_iff.mpr settles.settledAs, toSchedule_ok_iff.mpr settles⟩

/-- Names of frequencies, codes of days and pairs may be loosely typed. -/
theorem read_print_of_loose_codes :
    let r := { bare (.ofString " Monthly") with
      weekStart := .ofString "su "
      weekdays := [.ofString "MO", .tuple [.int (-1), .ofString "fr"]] }
    let start := Datum.ofString "2025-01-06T00:00:00Z"
    r.validate start = .ok () ∧ (∀ n : Int, r.count = .int n → n < 2 ^ 32) ∧
      (∀ part, (r.values part).length ≤ ({} : Limits).maxListItems) ∧
      (r.print .extended).length ≤ ({} : Limits).maxTextLength ∧ r.namesDaysByCode = true ∧
      ((∃ back, read {} (r.print .extended) = .ok back) ↔ r.namesDaysByCode = true) ∧
      ∀ back, read {} (r.print .extended) = .ok back →
        ∃ schedule, back.toSchedule = .ok schedule ∧ r.toSchedule = .ok schedule := by
  intro r start
  have valid : r.validate start = .ok () := by rfl
  have count : ∀ n : Int, r.count = .int n → n < 2 ^ 32 := fun _ same => nomatch same
  have few : ∀ part, (r.values part).length ≤ ({} : Limits).maxListItems := by
    intro part
    cases part <;> decide
  have short : (r.print .extended).length ≤ ({} : Limits).maxTextLength := by decide +kernel
  exact ⟨valid, count, few, short, by decide +kernel, read_print_of_validate valid count few short⟩

/-- A day that is called by its name is accepted but cannot be read back. -/
theorem not_read_print_of_day_name :
    let r := { bare (.frequency .weekly) with weekdays := [.ofString "Sunday"] }
    let start := Datum.ofString "2025-01-05T00:00:00Z"
    r.validate start = .ok () ∧ r.count = .none ∧
      (∀ part, (r.values part).length ≤ ({} : Limits).maxListItems) ∧
      (r.print .extended).length ≤ ({} : Limits).maxTextLength ∧
      ¬∃ back, read {} (r.print .extended) = .ok back := by
  intro r start
  have valid : r.validate start = .ok () := by rfl
  have few : ∀ part, (r.values part).length ≤ ({} : Limits).maxListItems := by
    intro part
    cases part <;> decide
  have short : (r.print .extended).length ≤ ({} : Limits).maxTextLength := by decide +kernel
  refine ⟨valid, rfl, few, short, ?_⟩
  rintro ⟨back, given⟩
  obtain ⟨moment, schedule, _, settles, checked⟩ := validate_ok_iff.mp valid
  have fits : r.FitsText {} schedule :=
    ⟨settles, ⟨_, settles.isSound checked⟩, fun _ same => (nomatch same), few⟩
  have coded := fits.namesDaysByCode short given
  have called : r.namesDaysByCode = false := by decide +kernel
  rw [called] at coded
  cases coded

end Recurrence.Rule
