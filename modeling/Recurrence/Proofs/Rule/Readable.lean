import Recurrence.Proofs.Outcome
import Recurrence.Proofs.Text.Digits
import Recurrence.Rule.Reader

namespace Recurrence

/-- The items that a rule text can give to a list part: integers that the part
can store, and weekdays with an ordinal of at most three digits. -/
def ListPart.Holds (part : ListPart) (d : Datum) : Prop :=
  match part with
  | .weekday =>
    (∃ day, d = .every (.weekday day)) ∨
      ∃ n day, d = .nth (.int n) (.weekday day) ∧ n ≠ 0 ∧ n.natAbs < 10 ^ Rule.mostOrdinalDigits
  | part => ∃ n, d = .int n ∧ part.storage.1 ≤ n ∧ n ≤ part.storage.2

/-- The settings that a rule text can give under the limits. -/
def Setting.Fits (limits : Limits) : Setting → Prop
  | .interval n => 1 ≤ n ∧ n ≤ Rule.maxInterval
  | .count n => n ≤ Rule.maxCount
  | .list part items => items.length ≤ limits.maxListItems ∧ ∀ d ∈ items, part.Holds d
  | .frequency _ | .ends _ _ | .weekStart _ => True

namespace Rule

/-- All parts but the frequency hold what a rule text can give under the limits. -/
structure HasReadableParts (limits : Limits) (r : Rule) : Prop where
  interval : ∃ n : Nat, r.interval = .int n ∧ 1 ≤ n ∧ n ≤ maxInterval
  count : r.count = .none ∨ ∃ n : Nat, r.count = .int n ∧ n ≤ maxCount
  ends : r.ends = .none ∨ ∃ t, r.ends = .moment t
  weekStart : ∃ day, r.weekStart = .weekday day
  length : ∀ part, (r.values part).length ≤ limits.maxListItems
  items : ∀ part, ∀ d ∈ r.values part, part.Holds d

/-- The rules that some text gives under the limits. -/
structure IsReadable (limits : Limits) (r : Rule) : Prop extends HasReadableParts limits r where
  frequency : ∃ f, r.frequency = .frequency f

theorem HasReadableParts.bare (limits : Limits) (frequency : Datum) :
    HasReadableParts limits (bare frequency) where
  interval := ⟨1, rfl, by decide, by decide⟩
  count := .inl rfl
  ends := .inl rfl
  weekStart := ⟨.monday, rfl⟩
  length part := by cases part <;> exact Nat.zero_le _
  items part d member := by cases part <;> cases member

theorem HasReadableParts.put {limits : Limits} {r : Rule} (readable : HasReadableParts limits r)
    {setting : Setting} (fits : setting.Fits limits) : HasReadableParts limits (r.put setting) := by
  obtain ⟨interval, count, ends, weekStart, length, items⟩ := readable
  cases setting with
  | frequency f => exact ⟨interval, count, ends, weekStart, length, items⟩
  | interval n => exact ⟨⟨n, rfl, fits⟩, count, ends, weekStart, length, items⟩
  | count n => exact ⟨interval, .inr ⟨n, rfl, fits⟩, ends, weekStart, length, items⟩
  | ends t normal => exact ⟨interval, count, .inr ⟨t, rfl⟩, weekStart, length, items⟩
  | weekStart day => exact ⟨interval, count, ends, ⟨day, rfl⟩, length, items⟩
  | list part values =>
    refine ⟨?_, ?_, ?_, ?_, fun other => ?_, fun other d member => ?_⟩
    · cases part <;> exact interval
    · cases part <;> exact count
    · cases part <;> exact ends
    · cases part <;> exact weekStart
    · rw [Rule.put, values_withValues]
      split
      · exact fits.1
      · exact length other
    · rw [Rule.put, values_withValues] at member
      split at member
      · rename_i same
        rw [same]
        exact fits.2 d member
      · exact items other d member

theorem frequency_put {r : Rule} {setting : Setting}
    (known : (∃ f, setting = .frequency f) ∨ ∃ f, r.frequency = .frequency f) :
    ∃ f, (r.put setting).frequency = .frequency f := by
  rcases known with ⟨f, rfl⟩ | ⟨f, known⟩
  · exact ⟨f, rfl⟩
  · cases setting with
    | frequency g => exact ⟨g, rfl⟩
    | list part values => cases part <;> exact ⟨f, known⟩
    | _ => exact ⟨f, known⟩

/-- A rule put together from fitting settings with a frequency among them is
readable. -/
theorem isReadable_ofSettings {limits : Limits} {settings : List Setting}
    (fits : ∀ setting ∈ settings, setting.Fits limits)
    (known : ∃ f, .frequency f ∈ settings) : (ofSettings settings).IsReadable limits := by
  have fold {settings : List Setting} {r : Rule} (readable : HasReadableParts limits r)
      (fits : ∀ setting ∈ settings, setting.Fits limits)
      (known : (∃ f, .frequency f ∈ settings) ∨ ∃ f, r.frequency = .frequency f) :
      (settings.foldl Rule.put r).IsReadable limits := by
    induction settings generalizing r with
    | nil =>
      rcases known with ⟨f, member⟩ | known
      · cases member
      · exact ⟨readable, known⟩
    | cons setting rest ih =>
      refine ih (readable.put (fits setting (List.mem_cons_self ..)))
        (fun other member => fits other (List.mem_cons_of_mem _ member)) ?_
      rcases known with ⟨f, member⟩ | known
      · rcases List.mem_cons.mp member with same | later
        · exact .inr (frequency_put (.inl ⟨f, same.symm⟩))
        · exact .inl ⟨f, later⟩
      · exact .inr (frequency_put (.inr known))
  exact fold (HasReadableParts.bare limits _) fits (.inl known)

theorem holds_of_readOccurrence? {token : Text} {d : Datum}
    (read : readOccurrence? token = some d) : ListPart.weekday.Holds d := by
  unfold readOccurrence? at read
  dsimp only at read
  split at read
  · cases read
  · rename_i day _
    split at read
    · cases read
      exact .inl ⟨day, rfl⟩
    · split at read
      · rename_i n number
        split at read
        · rename_i bounds
          cases read
          exact .inr ⟨n, day, rfl, bounds.1, Text.natAbs_lt_of_int? number⟩
        · cases read
      · cases read

theorem holds_of_readNumber? {part : ListPart} (numeric : part ≠ .weekday) {token : Text}
    {d : Datum} (read : readNumber? part token = some d) : part.Holds d := by
  unfold readNumber? at read
  dsimp only at read
  split at read
  · rename_i n _
    split at read
    · rename_i bounds
      cases read
      cases part with
      | weekday => exact absurd rfl numeric
      | _ => exact ⟨n, rfl, bounds⟩
    · cases read
  · cases read

theorem holds_of_readItem {part : ListPart} {token : Text} {d : Datum}
    (read : readItem part token = .ok d) : part.Holds d := by
  unfold readItem at read
  split at read
  · split at read
    · rename_i found
      cases read
      exact holds_of_readOccurrence? found
    · cases read
  · rename_i numeric
    split at read
    · rename_i found
      cases read
      exact holds_of_readNumber? numeric found
    · cases read

theorem readItems_eq (part : ListPart) (tokens : List Text) :
    readItems part tokens = tokens.mapM (readItem part) := by
  induction tokens with
  | nil => rfl
  | cons token tokens ih =>
    rw [readItems, List.mapM_cons, ih]

theorem fits_of_readList {limits : Limits} {part : ListPart} {value : Text} {items : List Datum}
    (read : readList limits part value = .ok items) : (Setting.list part items).Fits limits := by
  unfold readList at read
  dsimp only at read
  split at read
  · cases read
  · rename_i few
    rw [readItems_eq] at read
    rw [← Outcome.length_mapM read] at few
    refine ⟨Nat.le_of_not_lt few, fun d member => ?_⟩
    obtain ⟨token, _, itemRead⟩ := Outcome.mem_mapM read member
    exact holds_of_readItem itemRead

theorem fits_of_readValue {limits : Limits} {part : Part} {value : Text} {setting : Setting}
    (read : readValue limits part value = .ok setting) : setting.Fits limits := by
  cases part with
  | list part =>
    rw [readValue, Except.map.eq_def] at read
    split at read
    · cases read
    · rename_i items listRead
      cases read
      exact fits_of_readList listRead
  | interval =>
    simp only [readValue] at read
    split at read
    · split at read
      · rename_i bounds
        cases read
        exact bounds
      · cases read
    · cases read
  | count =>
    simp only [readValue] at read
    split at read
    · split at read
      · rename_i bound
        cases read
        exact bound
      · cases read
    · cases read
  | ends =>
    simp only [readValue] at read
    split at read
    · split at read
      · cases read
        trivial
      · cases read
    · cases read
  | frequency | weekStart =>
    simp only [readValue] at read
    split at read
    · cases read
      trivial
    · cases read

theorem frequency_of_readValue {limits : Limits} {value : Text} {setting : Setting}
    (read : readValue limits .frequency value = .ok setting) : ∃ f, setting = .frequency f := by
  simp only [readValue] at read
  split at read
  · rename_i f _
    cases read
    exact ⟨f, rfl⟩
  · cases read

theorem readValues_eq (limits : Limits) (entries : List (Part × Text)) :
    readValues limits entries = entries.mapM fun entry => readValue limits entry.1 entry.2 := by
  induction entries with
  | nil => rfl
  | cons entry entries ih => rw [readValues, List.mapM_cons, ih]

theorem fits_of_readValues {limits : Limits} {entries : List (Part × Text)}
    {settings : List Setting} (read : readValues limits entries = .ok settings) :
    (∀ setting ∈ settings, setting.Fits limits) ∧
      ((∃ entry ∈ entries, entry.1 = .frequency) → ∃ f, .frequency f ∈ settings) := by
  rw [readValues_eq] at read
  constructor
  · intro setting member
    obtain ⟨entry, _, settingRead⟩ := Outcome.mem_mapM read member
    exact fits_of_readValue settingRead
  · rintro ⟨entry, member, isFrequency⟩
    obtain ⟨setting, among, settingRead⟩ := Outcome.mem_mapM_of_mem read member
    rw [isFrequency] at settingRead
    obtain ⟨f, rfl⟩ := frequency_of_readValue settingRead
    exact ⟨f, among⟩

/-- A rule that is read is put together from what its segments set. -/
theorem of_read {limits : Limits} {text : Text} {r : Rule} (read : Rule.read limits text = .ok r) :
    ∃ entries settings, readSegments [] (Text.split ';' (body limits text)) = .ok entries ∧
      (∃ entry ∈ entries, entry.1 = .frequency) ∧ readValues limits entries = .ok settings ∧
      ofSettings settings = r := by
  unfold Rule.read at read
  split at read
  · cases read
  · obtain ⟨entries, divided, read⟩ := Outcome.bind_eq_ok.mp read
    split at read
    · rename_i named
      obtain ⟨settings, understood, made⟩ := Outcome.bind_eq_ok.mp read
      refine ⟨entries, settings, divided, ?_, understood, Outcome.pure_eq_ok.mp made⟩
      simpa only [List.any_eq_true, decide_eq_true_eq] using named
    · cases read

/-- Whatever a text is read as is readable under the same limits. -/
theorem isReadable_of_read {limits : Limits} {text : Text} {r : Rule}
    (read : Rule.read limits text = .ok r) : r.IsReadable limits := by
  obtain ⟨entries, settings, _, named, understood, rfl⟩ := of_read read
  obtain ⟨fits, known⟩ := fits_of_readValues understood
  exact isReadable_ofSettings fits (known named)

end Rule

end Recurrence
