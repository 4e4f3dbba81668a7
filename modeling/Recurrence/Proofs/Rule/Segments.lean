import Recurrence.Proofs.Rule.Drafts
import Recurrence.Proofs.Rule.Readable
import Recurrence.Proofs.Text.Tokens
import Recurrence.Proofs.Text.Trimming
import Recurrence.Rule.Printer
import Recurrence.Rule.Reader

namespace Recurrence

theorem Part.all_isToken_key (part : Part) : part.key.all Text.isToken = true := by
  cases part with
  | list part => cases part <;> rfl
  | _ => rfl

theorem Part.equals_notMem_key (part : Part) : '=' ∉ part.key := by
  cases part with
  | list part => cases part <;> decide
  | _ => decide

theorem Weekday.length_code (day : Weekday) : day.code.length = 2 := by
  cases day <;> rfl

/-- The part that a setting is for. -/
def Setting.part : Setting → Part
  | .frequency _ => .frequency
  | .interval _ => .interval
  | .count _ => .count
  | .ends _ _ => .ends
  | .weekStart _ => .weekStart
  | .list part _ => .list part

/-- The value that a setting gives to its part. -/
def Setting.value : Setting → Datum
  | .frequency f => .frequency f
  | .interval n => .int n
  | .count n => .int n
  | .ends t _ => .moment t
  | .weekStart day => .weekday day
  | .list _ items => .tuple items

namespace Rule

open Text (trim)

/-- The values with which a text writes the parts of a rule, without the parts
that hold their default. -/
def valueText? (form : EndForm) (r : Rule) : Part → Option Text
  | .frequency => some r.frequency.token
  | .interval => if r.interval.same (.int 1) then none else some r.interval.text
  | .count => if r.count = .none then none else some r.count.text
  | .ends => if r.ends = .none then none else some (endText form r.ends)
  | .weekStart =>
    if r.weekStart.token = Weekday.monday.code then none else some r.weekStart.token
  | .list part =>
    if (r.values part).isEmpty then none
    else some (Text.join [','] ((r.values part).map (itemText part)))

/-- The parts that a text writes, with their values, in the order of the text. -/
def written (form : EndForm) (r : Rule) : List (Part × Text) :=
  Part.all.filterMap fun part => (r.valueText? form part).map fun value => (part, value)

theorem segments_eq (form : EndForm) (r : Rule) :
    r.segments form = (r.written form).map fun entry => segment entry.1 entry.2 := by
  have lists : ∀ parts : List ListPart, parts.flatMap r.listSegment =
      ((parts.map Part.list).filterMap fun part =>
        (r.valueText? form part).map fun value => (part, value)).map
          fun entry => segment entry.1 entry.2 := by
    intro parts
    induction parts with
    | nil => rfl
    | cons part parts ih =>
      rw [List.flatMap_cons, ih, List.map_cons, List.filterMap_cons, listSegment, valueText?]
      cases empty : (r.values part).isEmpty <;> simp
  rw [segments, lists, written, Part.all, List.filterMap_append, List.map_append]
  congr 1
  simp only [List.filterMap_cons, List.filterMap_nil, valueText?, Option.map_some]
  split <;> split <;> split <;> split <;> simp_all

theorem isBlankText_segment (part : Part) (value : Text) :
    Text.isBlankText (segment part value) = false := by
  have equals : Text.isBlank '=' = false := rfl
  simp only [segment, Text.isBlankText, List.all_append, List.all_cons, equals, Bool.false_and,
    Bool.and_false]

/-- Segments are recognized up to the blanks around them, each part at most once. -/
theorem readSegments_of_trimmed {entries : List (Part × Text)} {segments : List Text}
    {seen : List Part}
    (trimmed : segments.map trim = entries.map fun entry => trim (segment entry.1 entry.2))
    (fresh : ∀ entry ∈ entries, entry.1 ∉ seen) (distinct : (entries.map Prod.fst).Nodup) :
    readSegments seen segments = .ok (entries.map fun entry => (entry.1, trim entry.2)) := by
  induction entries generalizing segments seen with
  | nil =>
    rw [List.map_nil, List.map_eq_nil_iff] at trimmed
    rw [trimmed]
    rfl
  | cons entry entries ih =>
    obtain ⟨part, value⟩ := entry
    cases segments with
    | nil => cases trimmed
    | cons text segments =>
      rw [List.map_cons, List.map_cons, List.cons.injEq] at trimmed
      obtain ⟨same, later⟩ := trimmed
      rw [List.map_cons, List.nodup_cons] at distinct
      have shown : Text.isBlankText text = false := by
        rw [Bool.eq_false_iff, ne_eq, Text.isBlankText_iff, same, ← Text.isBlankText_iff,
          isBlankText_segment]
        exact Bool.false_ne_true
      obtain ⟨before, after, divided, key, rest⟩ := Text.splitFirst?_of_trim_eq rfl same
        (Text.splitFirst?_append part.equals_notMem_key value)
      have known : Part.ofKey? (Text.upper (trim before)) = some part := by
        rw [key, Text.trim_of_isToken part.all_isToken_key,
          Text.upper_of_isToken part.all_isToken_key, Part.ofKey?_key]
      have unseen : ∀ other ∈ entries, other.1 ∉ part :: seen := fun other member =>
        List.not_mem_cons_of_ne_of_not_mem
          (fun repeated => distinct.1 (List.mem_map.mpr ⟨other, member, repeated⟩))
          (fresh other (List.mem_cons_of_mem _ member))
      have tail := ih later unseen distinct.2
      simp only [readSegments, shown, Bool.false_eq_true, if_false, divided, known,
        fresh _ (List.mem_cons_self ..), tail, bind, Except.bind, rest, List.map_cons]
      rfl

theorem draft_bare : (bare .none).draft = Draft.default := by
  funext part
  cases part with
  | list part => cases part <;> rfl
  | _ => rfl

theorem draft_injective {r s : Rule} (same : r.draft = s.draft) : r = s := by
  have made := ofDraft_draft r
  rw [same, ofDraft_draft] at made
  exact (Except.ok.inj made).symm

theorem draft_put (r : Rule) (setting : Setting) (part : Part) :
    (r.put setting).draft part = if part = setting.part then setting.value else r.draft part := by
  cases setting with
  | list own items =>
    cases part with
    | list other =>
      have values := r.values_withValues items own other
      simp only [draft, put, values, Setting.part, Setting.value, Part.list.injEq]
      split <;> rfl
    | _ => cases own <;> rfl
  | _ => cases part <;> rfl

theorem replace_part (r : Rule) (part : Part) (value : Datum) :
    r.replace [(part.name.toList, value)] = ofDraft (r.draft.set part value) := by
  unfold replace
  simp only [Draft.partsOf?, Part.ofName?_name]
  rfl

/-- A value that fits its part is taken over as it is. -/
theorem replace_setting (r : Rule) (setting : Setting) :
    r.replace [(setting.part.name.toList, setting.value)] = .ok (r.put setting) := by
  have same : r.draft.set setting.part setting.value = (r.put setting).draft :=
    (funext (r.draft_put setting)).symm
  rw [replace_part, same, ofDraft_draft]

theorem draft_ofSettings (settings : List Setting) :
    (ofSettings settings).draft =
      Draft.default.setAll (settings.map fun setting => (setting.part, setting.value)) := by
  have fold (r : Rule) : (settings.foldl put r).draft =
      r.draft.setAll (settings.map fun setting => (setting.part, setting.value)) := by
    induction settings generalizing r with
    | nil => rfl
    | cons setting settings ih =>
      have step : (r.put setting).draft = r.draft.set setting.part setting.value :=
        funext (r.draft_put setting)
      rw [List.foldl_cons, ih, step]
      rfl
  rw [ofSettings, fold, draft_bare]

/-- A rule is put together from settings when they give each part the value that
the rule has there, and the other parts hold their default. -/
theorem ofSettings_eq {settings : List Setting} {r : Rule}
    (given : ∀ setting ∈ settings, setting.value = r.draft setting.part)
    (others : ∀ part, (∀ setting ∈ settings, setting.part ≠ part) →
      r.draft part = Draft.default part) : ofSettings settings = r := by
  refine draft_injective ((draft_ofSettings settings).trans (Draft.setAll_eq ?_ ?_))
  · exact List.forall_mem_map.mpr given
  · exact fun part absent => others part fun setting member =>
      absent (setting.part, setting.value) (List.mem_map_of_mem member)

/-- Values are read one by one when each of them can be read. -/
theorem readValues_of_entries {limits : Limits} {entries : List (Part × Text)} {r : Rule}
    (values : ∀ entry ∈ entries, ∃ setting, readValue limits entry.1 entry.2 = .ok setting ∧
      setting.part = entry.1 ∧ setting.value = r.draft entry.1) :
    ∃ settings, readValues limits entries = .ok settings ∧
      (∀ entry ∈ entries, ∃ setting ∈ settings, setting.part = entry.1) ∧
      ∀ setting ∈ settings, setting.value = r.draft setting.part := by
  have each : ∀ entry ∈ entries, ∃ setting, readValue limits entry.1 entry.2 = .ok setting := by
    intro entry member
    obtain ⟨setting, read, _⟩ := values entry member
    exact ⟨setting, read⟩
  obtain ⟨settings, read⟩ := Outcome.mapM_ok_iff.mpr each
  refine ⟨settings, (readValues_eq limits entries).trans read, fun entry member => ?_,
    fun setting member => ?_⟩
  · obtain ⟨setting, among, settingRead⟩ := Outcome.mem_mapM_of_mem read member
    obtain ⟨other, same, part, _⟩ := values entry member
    cases settingRead.symm.trans same
    exact ⟨setting, among, part⟩
  · obtain ⟨entry, among, settingRead⟩ := Outcome.mem_mapM read member
    obtain ⟨other, same, part, value⟩ := values entry among
    cases settingRead.symm.trans same
    rw [value, part]

/-- A text that begins with the key of the frequency has no property name in
front. -/
theorem body_eq_trim (limits : Limits) (value rest : Text) :
    body limits (segment .frequency value ++ rest) = trim (segment .frequency value ++ rest) := by
  obtain ⟨kept, trimmed⟩ := Text.exists_trim_cons (show Text.isBlank 'F' = false from rfl)
    (['R', 'E', 'Q', '='] ++ value ++ rest)
  have text : segment .frequency value ++ rest = 'F' :: (['R', 'E', 'Q', '='] ++ value ++ rest) := rfl
  have noMark : Text.upper (('F' :: kept).take mark.length) ≠ mark := by
    have first : Text.upper (('F' :: kept).take mark.length) = 'F' :: Text.upper (kept.take 5) := rfl
    rw [first]
    intro same
    cases same
  simp only [body, text, trimmed, noMark, and_false, if_false]

theorem mem_written {form : EndForm} {r : Rule} {part : Part} {value : Text} :
    (part, value) ∈ r.written form ↔ r.valueText? form part = some value := by
  simp only [written, List.mem_filterMap, Option.map_eq_some_iff, Prod.mk.injEq]
  constructor
  · rintro ⟨_, _, _, found, rfl, rfl⟩
    exact found
  · intro found
    exact ⟨part, part.mem_all, value, found, rfl, rfl⟩

theorem nodup_written (form : EndForm) (r : Rule) : ((r.written form).map Prod.fst).Nodup := by
  have sublist : ((r.written form).map Prod.fst).Sublist Part.all := by
    rw [written]
    generalize Part.all = parts
    induction parts with
    | nil => exact .slnil
    | cons part parts ih =>
      rw [List.filterMap_cons]
      cases r.valueText? form part with
      | none => exact ih.cons _
      | some value => exact ih.cons_cons _
  exact sublist.nodup (by decide)

/-- Segments have no semicolon when the values that they write have none. -/
theorem semicolon_notMem_segments {form : EndForm} {r : Rule}
    (undivided : ∀ part value, r.valueText? form part = some value → ';' ∉ value) :
    ∀ text ∈ r.segments form, ';' ∉ text := by
  intro text member inText
  rw [segments_eq] at member
  obtain ⟨⟨part, value⟩, entry, rfl⟩ := List.mem_map.mp member
  rcases List.mem_append.mp inText with inKey | inValue
  · exact Text.notMem_of_isToken rfl part.all_isToken_key inKey
  · rcases List.mem_cons.mp inValue with equals | inValue
    · cases equals
    · exact undivided part value (mem_written.mp entry) inValue

/-- Of the text of a rule all parts are recognized, and then their values are read. -/
theorem read_print_eq {limits : Limits} {form : EndForm} {r : Rule}
    (short : (r.print form).length ≤ limits.maxTextLength)
    (undivided : ∀ part value, r.valueText? form part = some value → ';' ∉ value) :
    read limits (r.print form) =
      (readValues limits ((r.written form).map fun entry => (entry.1, trim entry.2))).map
        ofSettings := by
  have free := semicolon_notMem_segments undivided
  rw [segments_eq] at free
  obtain ⟨others, first⟩ : ∃ others, r.written form = (.frequency, r.frequency.token) :: others :=
    ⟨_, rfl⟩
  have nonempty : (r.written form).map (fun entry => segment entry.1 entry.2) ≠ [] := by
    rw [first]
    simp
  have whole : body limits (r.print form) = trim (r.print form) := by
    rw [print, segments_eq, first, List.map_cons]
    cases others with
    | nil =>
      have start := body_eq_trim limits r.frequency.token []
      rwa [List.append_nil] at start
    | cons next rest =>
      have start := body_eq_trim limits r.frequency.token
        (';' :: Text.join [';'] ((next :: rest).map fun entry => segment entry.1 entry.2))
      simpa only [List.map_cons, Text.join, List.append_assoc, List.singleton_append] using start
  have trimmed : (Text.split ';' (trim (r.print form))).map trim =
      (r.written form).map fun entry => trim (segment entry.1 entry.2) := by
    rw [Text.map_trim_split_trim rfl, print, segments_eq, Text.split_join nonempty free,
      List.map_map]
    rfl
  have unseen : ∀ entry ∈ r.written form, entry.1 ∉ [] := fun _ _ => List.not_mem_nil
  have entries := readSegments_of_trimmed trimmed unseen (nodup_written form r)
  have named : ((r.written form).map fun entry => (entry.1, trim entry.2)).any
      (fun entry => entry.1 = .frequency) = true := by
    rw [first]
    simp
  simp only [Rule.read, Nat.not_lt.mpr short, if_false, whole, entries, bind, Except.bind, named,
    if_true]
  cases readValues limits ((r.written form).map fun entry => (entry.1, trim entry.2)) <;> rfl

/-- The text of one rule is read as another when each value is read as what the
other rule has in its part, and the other has the default where the text says
nothing. -/
theorem read_print_of_values {limits : Limits} {form : EndForm} {r settled : Rule}
    (short : (r.print form).length ≤ limits.maxTextLength)
    (values : ∀ part value, r.valueText? form part = some value → ';' ∉ value ∧
      ∃ setting, readValue limits part (trim value) = .ok setting ∧ setting.part = part ∧
        setting.value = settled.draft part)
    (defaults : ∀ part, r.valueText? form part = none →
      settled.draft part = Draft.default part) : read limits (r.print form) = .ok settled := by
  have readable : ∀ entry ∈ (r.written form).map fun entry => (entry.1, trim entry.2),
      ∃ setting, readValue limits entry.1 entry.2 = .ok setting ∧ setting.part = entry.1 ∧
        setting.value = settled.draft entry.1 := by
    intro entry member
    obtain ⟨⟨part, value⟩, found, rfl⟩ := List.mem_map.mp member
    exact (values part value (mem_written.mp found)).2
  obtain ⟨settings, read, parts, given⟩ := readValues_of_entries readable
  have settledEq : ofSettings settings = settled := by
    refine ofSettings_eq given fun part absent => defaults part ?_
    cases found : r.valueText? form part with
    | none => rfl
    | some value =>
      obtain ⟨setting, among, same⟩ := parts (part, trim value)
        (List.mem_map.mpr ⟨(part, value), mem_written.mpr found, rfl⟩)
      exact absurd same (absent setting among)
  rw [read_print_eq short fun part value written => (values part value written).1, read, ← settledEq]
  rfl

/-- Where the text of a rule is read, each of its values is. -/
theorem readValue_of_read_print {limits : Limits} {form : EndForm} {r back : Rule}
    (short : (r.print form).length ≤ limits.maxTextLength)
    (undivided : ∀ part value, r.valueText? form part = some value → ';' ∉ value)
    (read : Rule.read limits (r.print form) = .ok back) {part : Part} {value : Text}
    (written : r.valueText? form part = some value) :
    ∃ setting, readValue limits part (trim value) = .ok setting := by
  rw [read_print_eq short undivided] at read
  cases made : readValues limits ((r.written form).map fun entry => (entry.1, trim entry.2)) with
  | error e =>
    rw [made] at read
    cases read
  | ok settings =>
    rw [readValues_eq] at made
    exact Outcome.mapM_ok_iff.mp ⟨settings, made⟩ (part, trim value)
      (List.mem_map.mpr ⟨(part, value), mem_written.mpr written, rfl⟩)

end Rule

end Recurrence
