import Recurrence.Proofs.Calendar.IsoReading
import Recurrence.Proofs.Rule.Readable
import Recurrence.Proofs.Rule.Segments

namespace Recurrence

open Text (trim)

theorem Weekday.all_isToken_code (day : Weekday) : day.code.all Text.isToken = true := by
  cases day <;> rfl

theorem Weekday.all_isToken_ordinal (day : Weekday) (n : Int) :
    (Text.ofInt n ++ day.code).all Text.isToken = true := by
  rw [List.all_append, Text.all_isToken_ofInt, day.all_isToken_code]
  rfl

theorem Frequency.all_isToken_name (f : Frequency) : f.name.all Text.isToken = true := by
  cases f <;> rfl

namespace Rule

theorem occurrenceText_nth (n : Int) (day : Weekday) :
    occurrenceText (.nth (.int n) (.weekday day)) = Text.ofInt n ++ day.code := by
  rw [← Datum.token_weekday day]
  rfl

theorem itemText_int {part : ListPart} (numeric : part ≠ .weekday) (n : Int) :
    itemText part (.int n) = Text.ofInt n := by
  rw [itemText, if_neg numeric]
  rfl

theorem itemText_every (day : Weekday) : itemText .weekday (.every (.weekday day)) = day.code :=
  Datum.token_weekday day

theorem itemText_nth (n : Int) (day : Weekday) :
    itemText .weekday (.nth (.int n) (.weekday day)) = Text.ofInt n ++ day.code :=
  occurrenceText_nth n day

theorem readOccurrence?_code (day : Weekday) :
    readOccurrence? day.code = some (.every (.weekday day)) := by
  cases day <;> rfl

theorem readOccurrence?_ordinal {n : Int} {day : Weekday} (nonzero : n ≠ 0)
    (short : n.natAbs < 10 ^ mostOrdinalDigits) :
    readOccurrence? (Text.ofInt n ++ day.code) = some (.nth (.int n) (.weekday day)) := by
  have front : (Text.ofInt n ++ day.code).take ((Text.ofInt n ++ day.code).length - 2) =
      Text.ofInt n := by
    rw [List.length_append, day.length_code, Nat.add_sub_cancel, List.take_left']
    rfl
  have back : (Text.ofInt n ++ day.code).drop ((Text.ofInt n ++ day.code).length - 2) = day.code := by
    rw [List.length_append, day.length_code, Nat.add_sub_cancel, List.drop_left']
    rfl
  have nonempty : (Text.ofInt n).isEmpty = false := by
    cases n with
    | ofNat n => exact List.isEmpty_eq_false_iff.mpr (Text.ofNat_ne_nil n)
    | negSucc n => rfl
  have stored : n ≠ 0 ∧ -32768 ≤ n ∧ n ≤ 32767 := by
    have bound : n.natAbs < 1000 := short
    omega
  simp only [readOccurrence?, Text.upper_of_isToken (day.all_isToken_ordinal n), front, back, Weekday.ofCode?_code,
    nonempty, Bool.false_eq_true, if_false, Text.int?_ofInt (show 0 < mostOrdinalDigits by decide)
      short, ListPart.storage, stored, and_self, ne_eq, not_false_eq_true, if_true]

theorem readNumber?_ofInt {part : ListPart} {n : Int}
    (bounds : part.storage.1 ≤ n ∧ n ≤ part.storage.2) :
    readNumber? part (Text.ofInt n) = some (.int n) := by
  have stored : -2147483648 ≤ part.storage.1 ∧ part.storage.2 ≤ 2147483647 := by
    cases part <;> decide
  have short : n.natAbs < 10 ^ mostDigits := by
    have limit : 10 ^ mostDigits = 10000000000 := rfl
    omega
  have positive : 0 < mostDigits := by decide
  unfold readNumber?
  by_cases signed : part.storage.1 < 0
  · simp only [signed, if_true, Text.int?_ofInt positive short, bounds, and_self]
  · obtain ⟨m, rfl⟩ : ∃ m : Nat, n = m := ⟨n.toNat, by omega⟩
    have read : Text.nat? mostDigits (Text.ofInt m) = some m := Text.nat?_ofNat positive short
    simp only [signed, if_false, read, Option.map_some, Int.ofNat_eq_natCast, bounds, and_self,
      if_true]

/-- What a list part holds is written as a token and read back from it. -/
theorem readItem_itemText {part : ListPart} {d : Datum} (holds : part.Holds d) :
    (itemText part d).all Text.isToken = true ∧ readItem part (itemText part d) = .ok d := by
  cases part with
  | weekday =>
    rcases holds with ⟨day, rfl⟩ | ⟨n, day, rfl, nonzero, short⟩
    · rw [itemText_every, readItem, readOccurrence?_code]
      exact ⟨day.all_isToken_code, rfl⟩
    · rw [itemText_nth, readItem, readOccurrence?_ordinal nonzero short]
      exact ⟨day.all_isToken_ordinal n, rfl⟩
  | _ =>
    obtain ⟨n, rfl, bounds⟩ := holds
    refine ⟨Text.all_isToken_ofInt n, ?_⟩
    rw [itemText_int (by decide), readItem, readNumber?_ofInt bounds]
    simp

theorem readItems_map_itemText {part : ListPart} {items : List Datum}
    (holds : ∀ d ∈ items, part.Holds d) :
    readItems part (items.map (itemText part)) = .ok items := by
  rw [readItems_eq, Outcome.mapM_eq_ok_iff, List.forall₂_map_left_iff, List.forall₂_same]
  exact fun d member => (readItem_itemText (holds d member)).2

/-- A list that is written as texts without commas is divided into these texts. -/
theorem readList_join {limits : Limits} {part : ListPart} {texts : List Text}
    (nonempty : texts ≠ []) (few : texts.length ≤ limits.maxListItems)
    (undivided : ∀ text ∈ texts, ',' ∉ text) :
    readList limits part (trim (Text.join [','] texts)) = readItems part (texts.map trim) := by
  have pieces : (Text.split ',' (trim (Text.join [','] texts))).map trim = texts.map trim := by
    rw [Text.map_trim_split_trim rfl, Text.split_join nonempty undivided]
  have size : (texts.map trim).length = texts.length := List.length_map ..
  simp only [readList, pieces, size, Nat.not_lt.mpr few, if_false]

theorem readList_join_itemText {limits : Limits} {part : ListPart} {items : List Datum}
    (nonempty : items ≠ []) (few : items.length ≤ limits.maxListItems)
    (holds : ∀ d ∈ items, part.Holds d) :
    readList limits part (trim (Text.join [','] (items.map (itemText part)))) = .ok items := by
  have tokens : ∀ text ∈ items.map (itemText part), text.all Text.isToken = true := by
    intro text member
    obtain ⟨d, found, rfl⟩ := List.mem_map.mp member
    exact (readItem_itemText (holds d found)).1
  have trimmed : (items.map (itemText part)).map trim = items.map (itemText part) := by
    calc (items.map (itemText part)).map trim
        = (items.map (itemText part)).map id :=
          List.map_congr_left fun text member => Text.trim_of_isToken (tokens text member)
      _ = items.map (itemText part) := List.map_id _
  rw [readList_join (by simpa using nonempty) (by rwa [List.length_map])
    fun text member => Text.notMem_of_isToken rfl (tokens text member), trimmed,
    readItems_map_itemText holds]

theorem semicolon_notMem_join {part : ListPart} {items : List Datum}
    (holds : ∀ d ∈ items, part.Holds d) :
    ';' ∉ Text.join [','] (items.map (itemText part)) := by
  refine Text.notMem_join (by decide) fun text member => ?_
  obtain ⟨d, inItems, rfl⟩ := List.mem_map.mp member
  exact Text.notMem_of_isToken rfl (readItem_itemText (holds d inItems)).1

theorem readValue_name (limits : Limits) (f : Frequency) :
    readValue limits .frequency (trim f.name) = .ok (.frequency f) := by
  simp only [readValue, Text.trim_of_isToken f.all_isToken_name,
    Text.upper_of_isToken f.all_isToken_name, Frequency.ofName?_name]

theorem readValue_code (limits : Limits) (day : Weekday) :
    readValue limits .weekStart (trim day.code) = .ok (.weekStart day) := by
  simp only [readValue, Text.trim_of_isToken day.all_isToken_code,
    Text.upper_of_isToken day.all_isToken_code, Weekday.ofCode?_code]

theorem readValue_interval (limits : Limits) {n : Nat} (positive : 1 ≤ n) (bound : n ≤ maxInterval) :
    readValue limits .interval (trim (Text.ofNat n)) = .ok (.interval n) := by
  have limit : maxInterval = 65535 := rfl
  have short : n < 10 ^ mostDigits := Nat.lt_of_le_of_lt bound (by decide)
  simp only [readValue, Text.trim_of_isToken (Text.all_isToken_ofNat n),
    Text.nat?_ofNat (show 0 < mostDigits by decide) short, positive, bound, and_self, if_true]

theorem readValue_count (limits : Limits) {n : Nat} (bound : n ≤ maxCount) :
    readValue limits .count (trim (Text.ofNat n)) = .ok (.count n) := by
  have short : n < 10 ^ mostDigits := Nat.lt_of_le_of_lt bound (by decide)
  simp only [readValue, Text.trim_of_isToken (Text.all_isToken_ofNat n),
    Text.nat?_ofNat (show 0 < mostDigits by decide) short, bound, if_true]

theorem readValue_utcText (limits : Limits) (basic : Bool) {t : Timestamp} (normal : t.isNormal) :
    readValue limits .ends (trim (t.utcText basic)) = .ok (.ends t normal) := by
  have kept := Timestamp.normalize?_of_isNormal normal
  simp only [readValue, Text.trim_of_isToken (t.all_isToken_utcText basic),
    Timestamp.read_utcText basic normal]
  split
  · rename_i u found
    obtain rfl : t = u := by simpa only [kept, Option.some.injEq] using found
    rfl
  · rename_i missing
    rw [kept] at missing
    cases missing

/-- Each value that a readable rule is written with is read back as the value of
its part. -/
theorem readValue_valueText? {limits : Limits} {r : Rule} (readable : r.IsReadable limits)
    (form : EndForm) {part : Part} {value : Text} (written : r.valueText? form part = some value) :
    ';' ∉ value ∧ ∃ setting, readValue limits part (trim value) = .ok setting ∧
      setting.part = part ∧ setting.value = r.draft part := by
  have free {text : Text} (tokens : text.all Text.isToken = true) : ';' ∉ text :=
    Text.notMem_of_isToken rfl tokens
  cases part with
  | frequency =>
    obtain ⟨f, same⟩ := readable.frequency
    rw [valueText?, same, Datum.token_frequency] at written
    cases written
    exact ⟨free f.all_isToken_name, _, readValue_name limits f, rfl, same.symm⟩
  | interval =>
    obtain ⟨n, same, positive, bound⟩ := readable.interval
    rw [valueText?, same] at written
    split at written <;> cases written
    exact ⟨free (Text.all_isToken_ofNat n), _, readValue_interval limits positive bound, rfl,
      same.symm⟩
  | count =>
    rcases readable.count with none | ⟨n, same, bound⟩
    · rw [valueText?, if_pos none] at written
      cases written
    · rw [valueText?, same] at written
      cases written
      exact ⟨free (Text.all_isToken_ofNat n), _, readValue_count limits bound, rfl, same.symm⟩
  | ends =>
    rcases readable.ends with none | ⟨t, same⟩
    · rw [valueText?, if_pos none] at written
      cases written
    · rw [valueText?, same] at written
      cases written
      exact ⟨free (t.all_isToken_utcText _), _,
        readValue_utcText limits _ (r.ends_normal t same), rfl, same.symm⟩
  | weekStart =>
    obtain ⟨day, same⟩ := readable.weekStart
    rw [valueText?, same, Datum.token_weekday] at written
    split at written <;> cases written
    exact ⟨free day.all_isToken_code, _, readValue_code limits day, rfl, same.symm⟩
  | list part =>
    rw [valueText?] at written
    split at written <;> cases written
    rename_i nonempty
    refine ⟨semicolon_notMem_join (readable.items part), .list part (r.values part), ?_, rfl, rfl⟩
    rw [readValue, readList_join_itemText (by simpa using nonempty) (readable.length part)
      (readable.items part)]
    rfl

/-- A part that is not written holds its default. -/
theorem draft_of_valueText?_eq_none {limits : Limits} {r : Rule} (readable : r.IsReadable limits)
    {form : EndForm} {part : Part} (missing : r.valueText? form part = none) :
    r.draft part = Draft.default part := by
  cases part with
  | frequency => cases missing
  | interval =>
    obtain ⟨n, same, _⟩ := readable.interval
    rw [valueText?, same] at missing
    split at missing
    · rename_i one
      have value : n = 1 := by
        simpa [Datum.same, Datum.asNumber?, Datum.sameNumber] using one
      rw [draft, same, value]
      rfl
    · cases missing
  | count =>
    rw [valueText?] at missing
    split at missing
    · assumption
    · cases missing
  | ends =>
    rw [valueText?] at missing
    split at missing
    · assumption
    · cases missing
  | weekStart =>
    obtain ⟨day, same⟩ := readable.weekStart
    rw [valueText?, same, Datum.token_weekday] at missing
    split at missing
    · rename_i monday
      rw [draft, same]
      cases day <;> first | rfl | cases monday
    · cases missing
  | list part =>
    rw [valueText?] at missing
    split at missing
    · rename_i empty
      rw [draft, List.isEmpty_iff.mp empty]
      rfl
    · cases missing

/-- A readable rule is read back from its text, when the text is not too long. -/
theorem read_print {limits : Limits} {r : Rule} (readable : r.IsReadable limits) {form : EndForm}
    (short : (r.print form).length ≤ limits.maxTextLength) :
    read limits (r.print form) = .ok r :=
  read_print_of_values short (fun _ _ written => readValue_valueText? readable form written)
    fun _ missing => draft_of_valueText?_eq_none readable missing

/-- Reading undoes writing on every rule that is itself read from a text, in both
forms of the end. One pass is enough: the text of the rule read back is the
same text again. -/
theorem read_print_of_read {limits : Limits} {text : Text} {r : Rule} (form : EndForm)
    (given : read limits text = .ok r) (short : (r.print form).length ≤ limits.maxTextLength) :
    read limits (r.print form) = .ok r ∧
      (read limits (r.print form)).map (print form) = .ok (r.print form) := by
  have back := read_print (isReadable_of_read given) short
  refine ⟨back, ?_⟩
  rw [back]
  rfl

/-- Blanks, signs, leading zeros, an offset and a fraction all cancel out. -/
theorem read_print_of_loose_text :
    let text := "RRULE: byday=+1mo, -002Fr ;freq=monthly;UNTIL=2025-03-01T08:30:00.125+01:00".toList
    let r := ofSettings [.list .weekday [.nth (.int 1) (.weekday .monday),
      .nth (.int (-2)) (.weekday .friday)], .frequency .monthly,
      .ends ⟨63876411000, 125000, some 0, by decide, by decide⟩ (by decide)]
    read {} text = .ok r ∧ (r.print .basic).length ≤ ({} : Limits).maxTextLength ∧
      read {} (r.print .basic) = .ok r ∧
        (read {} (r.print .basic)).map (print .basic) = .ok (r.print .basic) := by
  intro text r
  have given : read {} text = .ok r := by rfl
  have short : (r.print .basic).length ≤ ({} : Limits).maxTextLength := by decide +kernel
  exact ⟨given, short, read_print_of_read .basic given short⟩

end Rule

end Recurrence
