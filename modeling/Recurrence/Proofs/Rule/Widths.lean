import Recurrence.Proofs.Rule.Refusal
import Recurrence.Proofs.Rule.RoundTrip

namespace Recurrence

open Text (trim)

/-- The items that a list part can store, whatever a text can write: integers, and
weekdays with an ordinal that is not zero or without one. -/
def ListPart.Stores (part : ListPart) (d : Datum) : Prop :=
  match part with
  | .weekday => (∃ day, d = .every (.weekday day)) ∨
      ∃ n day, d = .nth (.int n) (.weekday day) ∧ n ≠ 0 ∧
        ListPart.weekday.storage.1 ≤ n ∧ n ≤ ListPart.weekday.storage.2
  | part => ∃ n, d = .int n ∧ part.storage.1 ≤ n ∧ n ≤ part.storage.2

/-- An ordinal with more digits than a text may have. -/
def Datum.IsWide (d : Datum) : Prop :=
  ∃ n day, d = .nth (.int n) (.weekday day) ∧ 10 ^ Rule.mostOrdinalDigits ≤ n.natAbs

theorem ListPart.Holds.of_stores {part : ListPart} {d : Datum} (stored : part.Stores d)
    (narrow : ¬d.IsWide) : part.Holds d := by
  cases part with
  | weekday =>
    rcases stored with every | ⟨n, day, rfl, nonzero, _⟩
    · exact .inl every
    · refine .inr ⟨n, day, rfl, nonzero, ?_⟩
      by_contra wide
      exact narrow ⟨n, day, rfl, Nat.le_of_not_lt wide⟩
  | _ => exact stored

namespace Text

/-- A signed numeral that is the text of an integer has room for all its digits. -/
theorem IsSigned.natAbs_lt {most : Nat} {n m : Int} (written : IsSigned most (ofInt n) m) :
    n.natAbs < 10 ^ most := by
  have value {digits : Text} {k : Nat} (numeral : IsNumeral most digits) (same : digits = ofNat k) :
      k < 10 ^ most := by
    have read := nat?_eq_some_iff.mpr ⟨numeral, rfl⟩
    rw [← natValue_eq, same, natValue_ofNat] at read
    exact lt_of_nat? read
  generalize text : ofInt n = t at written
  cases n with
  | ofNat k =>
    obtain ⟨c, rest, whole, digit⟩ := ofNat_eq_cons k
    rw [ofInt] at text
    cases written with
    | plain numeral => exact value numeral text.symm
    | plus | minus =>
      rw [whole, List.cons.injEq] at text
      rw [text.1] at digit
      cases digit
  | negSucc k =>
    rw [ofInt] at text
    cases written with
    | plain numeral =>
      subst text
      exact absurd rfl numeral.head_ne.1
    | plus => cases text
    | minus numeral =>
      rw [List.cons.injEq] at text
      exact value numeral text.2.symm

end Text

namespace Rule

/-- Rules whose values have the types and widths that are documented for them. -/
structure IsDocumented (r : Rule) : Prop where
  frequency : ∃ f, r.frequency = .frequency f
  interval : ∃ n : Nat, r.interval = .int n ∧ 1 ≤ n ∧ n ≤ maxInterval
  count : r.count = .none ∨ ∃ n : Nat, r.count = .int n ∧ n ≤ maxCount
  ends : r.ends = .none ∨ ∃ t, r.ends = .moment t
  weekStart : ∃ day, r.weekStart = .weekday day
  items : ∀ part, ∀ d ∈ r.values part, part.Stores d

/-- Such a rule is readable but for the weekdays with a wide ordinal. -/
theorem IsDocumented.isReadable {limits : Limits} {r : Rule} (documented : r.IsDocumented)
    (few : ∀ part, (r.values part).length ≤ limits.maxListItems)
    (narrow : ∀ d ∈ r.weekdays, ¬d.IsWide) : r.IsReadable limits where
  frequency := documented.frequency
  interval := documented.interval
  count := documented.count
  ends := documented.ends
  weekStart := documented.weekStart
  length := few
  items part d member := by
    cases part with
    | weekday => exact .of_stores (documented.items .weekday d member) (narrow d member)
    | _ => exact documented.items _ d member

/-- Without its weekdays it is readable in any case. -/
theorem IsDocumented.isReadable_withValues {limits : Limits} {r : Rule}
    (documented : r.IsDocumented) (few : ∀ part, (r.values part).length ≤ limits.maxListItems) :
    (r.withValues [] .weekday).IsReadable limits := by
  have fewer : ∀ part, ((r.withValues [] .weekday).values part).length ≤ limits.maxListItems := by
    intro part
    rw [values_withValues]
    split
    · exact Nat.zero_le _
    · exact few part
  have stored : ∀ part, ∀ d ∈ (r.withValues [] .weekday).values part, part.Stores d := by
    intro part d member
    rw [values_withValues] at member
    split at member
    · cases member
    · exact documented.items part d member
  exact IsDocumented.isReadable ⟨documented.frequency, documented.interval, documented.count,
    documented.ends, documented.weekStart, stored⟩ fewer fun _ member => nomatch member

theorem valueText?_withValues {form : EndForm} {r : Rule} {part : Part}
    (other : part ≠ .list .weekday) :
    (r.withValues [] .weekday).valueText? form part = r.valueText? form part := by
  cases part with
  | list p =>
    have kept : (r.withValues [] .weekday).values p = r.values p := by
      rw [values_withValues, if_neg fun same => other (congrArg Part.list same)]
    rw [valueText?, kept, valueText?]
  | _ => rfl

theorem all_isToken_itemText {part : ListPart} {d : Datum} (stored : part.Stores d) :
    (itemText part d).all Text.isToken = true := by
  by_cases wide : d.IsWide
  · obtain ⟨n, day, rfl, _⟩ := wide
    cases part with
    | weekday =>
      rw [itemText_nth]
      exact day.all_isToken_ordinal n
    | _ =>
      obtain ⟨_, same, _⟩ := stored
      cases same
  · exact (readItem_itemText (.of_stores stored wide)).1

/-- A wide ordinal is refused with its weekday. -/
theorem readItem_of_isWide {d : Datum} (wide : d.IsWide) :
    readItem .weekday (itemText .weekday d) = .error (.invalidWeekday (itemText .weekday d)) := by
  obtain ⟨n, day, rfl, wide⟩ := wide
  refine readItem_error_iff.mpr ⟨?_, rfl⟩
  rintro ⟨ordinal, other, whole, admitted⟩
  rw [itemText_nth, Text.upper_of_isToken (day.all_isToken_ordinal n)] at whole
  obtain ⟨rfl, _⟩ := List.append_inj' whole (by rw [Weekday.length_code, Weekday.length_code])
  rcases admitted with empty | ⟨m, written, _⟩
  · cases n with
    | ofNat k => exact Text.ofNat_ne_nil k empty
    | negSucc k => cases empty
  · exact absurd written.natAbs_lt (Nat.not_lt.mpr wide)

/-- The list of stored items is divided into the texts of the items again. -/
theorem readList_join_stored {limits : Limits} {part : ListPart} {items : List Datum}
    (nonempty : items ≠ []) (few : items.length ≤ limits.maxListItems)
    (stored : ∀ d ∈ items, part.Stores d) :
    readList limits part (trim (Text.join [','] (items.map (itemText part)))) =
      (items.map (itemText part)).mapM (readItem part) := by
  have tokens : ∀ text ∈ items.map (itemText part), text.all Text.isToken = true := by
    intro text member
    obtain ⟨d, among, rfl⟩ := List.mem_map.mp member
    exact all_isToken_itemText (stored d among)
  have trimmed : (items.map (itemText part)).map trim = (items.map (itemText part)).map id :=
    List.map_congr_left fun text member => Text.trim_of_isToken (tokens text member)
  rw [readList_join (by simpa using nonempty) (by rwa [List.length_map])
    fun text member => Text.notMem_of_isToken rfl (tokens text member), trimmed, List.map_id,
    readItems_eq]

variable {limits : Limits} {r : Rule} {form : EndForm}

theorem IsDocumented.readValue_ok (documented : r.IsDocumented)
    (few : ∀ part, (r.values part).length ≤ limits.maxListItems) {part : Part} {value : Text}
    (other : part ≠ .list .weekday) (written : r.valueText? form part = some value) :
    ';' ∉ value ∧ ∃ setting, readValue limits part (trim value) = .ok setting := by
  rw [← valueText?_withValues other] at written
  obtain ⟨free, setting, read, _⟩ :=
    readValue_valueText? (documented.isReadable_withValues few) form written
  exact ⟨free, setting, read⟩

theorem IsDocumented.semicolon_notMem (documented : r.IsDocumented)
    (few : ∀ part, (r.values part).length ≤ limits.maxListItems) {part : Part} {value : Text}
    (written : r.valueText? form part = some value) : ';' ∉ value := by
  by_cases other : part = .list .weekday
  · rw [other, valueText?] at written
    split at written <;> cases written
    refine Text.notMem_join (by decide) fun text member => ?_
    obtain ⟨d, among, rfl⟩ := List.mem_map.mp member
    exact Text.notMem_of_isToken rfl (all_isToken_itemText (documented.items .weekday d among))
  · exact (documented.readValue_ok few other written).1

theorem valueText?_weekdays {d : Datum} (member : d ∈ r.weekdays) :
    r.valueText? form (.list .weekday) =
      some (Text.join [','] (r.weekdays.map (itemText .weekday))) := by
  have nonempty : (r.values .weekday).isEmpty = false :=
    List.isEmpty_eq_false_iff.mpr (List.ne_nil_of_mem member)
  rw [valueText?, nonempty]
  rfl

/-- The weekdays are read item by item from the text of their part. -/
theorem IsDocumented.readValue_weekdays (documented : r.IsDocumented)
    (few : ∀ part, (r.values part).length ≤ limits.maxListItems) {value : Text}
    (written : r.valueText? form (.list .weekday) = some value) :
    readValue limits (.list .weekday) (trim value) =
      ((r.weekdays.map (itemText .weekday)).mapM (readItem .weekday)).map
        (Setting.list .weekday) := by
  rw [valueText?] at written
  split at written <;> cases written
  rename_i some
  rw [readValue, readList_join_stored (by simpa using some) (few .weekday)
    (documented.items .weekday)]
  rfl

/-- The first wide ordinal ends the reading of a text: the parts before the weekdays
are read, and so are the weekdays before it. -/
theorem IsDocumented.read_print_of_isWide (documented : r.IsDocumented)
    (few : ∀ part, (r.values part).length ≤ limits.maxListItems)
    (short : (r.print form).length ≤ limits.maxTextLength) {before after : List Datum} {d : Datum}
    (weekdays : r.weekdays = before ++ d :: after) (narrow : ∀ other ∈ before, ¬other.IsWide)
    (wide : d.IsWide) :
    read limits (r.print form) = .error (.invalidWeekday (itemText .weekday d)) := by
  have among : ∀ other ∈ before ++ d :: after, other ∈ r.weekdays := fun other member =>
    weekdays ▸ member
  have written : r.valueText? form (.list .weekday) = _ :=
    valueText?_weekdays (among d (List.mem_append_right _ (List.mem_cons_self ..)))
  have items : (r.weekdays.map (itemText .weekday)).mapM (readItem .weekday) =
      .error (.invalidWeekday (itemText .weekday d)) := by
    refine Outcome.mapM_eq_error_iff.mpr ⟨before.map (itemText .weekday), itemText .weekday d,
      after.map (itemText .weekday), by rw [weekdays, List.map_append, List.map_cons], ?_,
      readItem_of_isWide wide⟩
    intro text member
    obtain ⟨other, first, rfl⟩ := List.mem_map.mp member
    have stored := documented.items .weekday other (among other (List.mem_append_left _ first))
    exact ⟨other, (readItem_itemText (.of_stores stored (narrow other first))).2⟩
  have failed := documented.readValue_weekdays few written
  rw [items] at failed
  obtain ⟨first, rest, whole⟩ := List.append_of_mem (mem_written.mpr written)
  have distinct := nodup_written form r
  rw [whole, List.map_append, List.map_cons, List.nodup_append] at distinct
  have values : readValues limits
      ((r.written form).map fun entry => (entry.1, trim entry.2)) =
        .error (.invalidWeekday (itemText .weekday d)) := by
    rw [readValues_eq, whole, List.map_append, List.map_cons]
    refine Outcome.mapM_eq_error_iff.mpr ⟨_, _, _, rfl, fun entry member => ?_, failed⟩
    obtain ⟨⟨part, value⟩, inFirst, rfl⟩ := List.mem_map.mp member
    have other : part ≠ .list .weekday := fun same =>
      distinct.2.2 part (List.mem_map_of_mem inFirst) _ (List.mem_cons_self ..) same
    exact (documented.readValue_ok few other
      (mem_written.mp (whole ▸ List.mem_append_left _ inFirst))).2
  rw [read_print_eq short fun _ _ => documented.semicolon_notMem few, values]
  rfl

/-- Reading undoes writing on a documented rule just when no ordinal of its weekdays
is wide, and otherwise the first wide one is refused. -/
theorem read_print_of_isDocumented (documented : r.IsDocumented)
    (few : ∀ part, (r.values part).length ≤ limits.maxListItems)
    (short : (r.print form).length ≤ limits.maxTextLength) :
    (read limits (r.print form) = .ok r ↔ ∀ d ∈ r.weekdays, ¬d.IsWide) ∧
      ∀ before d after, r.weekdays = before ++ d :: after → (∀ other ∈ before, ¬other.IsWide) →
        d.IsWide → read limits (r.print form) = .error (.invalidWeekday (itemText .weekday d)) := by
  refine ⟨⟨fun back d member wide => ?_, fun narrow => ?_⟩,
    fun before d after weekdays narrow wide =>
      documented.read_print_of_isWide few short weekdays narrow wide⟩
  · have written : r.valueText? form (.list .weekday) = _ := valueText?_weekdays member
    obtain ⟨setting, made⟩ := readValue_of_read_print short
      (fun _ _ => documented.semicolon_notMem few) back written
    rw [documented.readValue_weekdays few written] at made
    cases items : (r.weekdays.map (itemText .weekday)).mapM (readItem .weekday) with
    | error e =>
      rw [items] at made
      cases made
    | ok given =>
      obtain ⟨value, read⟩ := Outcome.mapM_ok_iff.mp ⟨given, items⟩ _ (List.mem_map_of_mem member)
      rw [readItem_of_isWide wide] at read
      cases read
  · exact read_print (documented.isReadable few narrow) short

/-- The ordinal 1000 fits the sixteen bits that are documented for it, but a text
with it is refused. -/
theorem read_print_of_thousandth_monday :
    let r := ofSettings [.frequency .yearly, .list .weekday [.nth (.int 1000) (.weekday .monday)]]
    r.IsDocumented ∧ (∀ part, (r.values part).length ≤ ({} : Limits).maxListItems) ∧
      r.print .extended = "FREQ=YEARLY;BYDAY=1000MO".toList ∧
        read {} (r.print .extended) = .error (.invalidWeekday "1000MO".toList) := by
  intro r
  have documented : r.IsDocumented := by
    refine ⟨⟨_, rfl⟩, ⟨1, rfl, by decide, by decide⟩, .inl rfl, .inl rfl, ⟨_, rfl⟩, ?_⟩
    intro part d member
    cases part with
    | weekday =>
      rcases List.mem_singleton.mp member with rfl
      exact .inr ⟨1000, .monday, rfl, by decide, by decide, by decide⟩
    | _ => cases member
  have few : ∀ part, (r.values part).length ≤ ({} : Limits).maxListItems := by
    intro part
    cases part <;> decide
  have text : r.print .extended = "FREQ=YEARLY;BYDAY=1000MO".toList := by decide +kernel
  have short : (r.print .extended).length ≤ ({} : Limits).maxTextLength := by
    rw [text]
    decide
  have failed := (read_print_of_isDocumented documented few short).2 [] _ [] rfl
    (fun _ member => nomatch member) ⟨1000, .monday, rfl, by decide⟩
  have token : itemText .weekday (.nth (.int 1000) (.weekday .monday)) = "1000MO".toList := by
    decide +kernel
  rw [token] at failed
  exact ⟨documented, few, text, failed⟩

end Rule

end Recurrence
