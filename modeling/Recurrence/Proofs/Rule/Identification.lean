import Recurrence.Proofs.Rule.RoundTrip
import Recurrence.Proofs.Rule.Sameness

namespace Recurrence.Rule

variable {r s : Rule} {form other : EndForm} {part : ListPart} {d e : Datum}

theorem all_isToken_of_types (typed : part.Types d) : (itemText part d).all Text.isToken = true := by
  cases part with
  | weekday =>
    rcases typed with ⟨day, rfl⟩ | ⟨n, day, rfl⟩
    · rw [itemText_every]
      exact day.all_isToken_code
    · rw [itemText_nth]
      exact day.all_isToken_ordinal n
  | _ =>
    obtain ⟨n, rfl⟩ := typed
    rw [itemText_int (by decide)]
    exact Text.all_isToken_ofInt n

/-- An ordinal in front of a code and a code alone are told apart, and so are different ones. -/
theorem ordinal_code_inj {before after : Text} {day next : Weekday}
    (same : before ++ day.code = after ++ next.code) : before = after ∧ day = next := by
  obtain ⟨front, back⟩ := List.append_inj' same (day.length_code.trans next.length_code.symm)
  exact ⟨front, Weekday.code_injective back⟩

theorem itemText_injective (first : part.Types d) (second : part.Types e)
    (same : itemText part d = itemText part e) : d = e := by
  cases part with
  | weekday =>
    rcases first with ⟨day, rfl⟩ | ⟨n, day, rfl⟩ <;> rcases second with ⟨next, rfl⟩ | ⟨m, next, rfl⟩
    · rw [itemText_every, itemText_every] at same
      rw [Weekday.code_injective same]
    · rw [itemText_every, itemText_nth] at same
      exact absurd (ordinal_code_inj ((List.nil_append _).trans same)).1.symm (Text.ofInt_ne_nil m)
    · rw [itemText_every, itemText_nth] at same
      exact absurd (ordinal_code_inj (same.trans (List.nil_append _).symm)).1 (Text.ofInt_ne_nil n)
    · rw [itemText_nth, itemText_nth] at same
      obtain ⟨ordinals, days⟩ := ordinal_code_inj same
      rw [Text.ofInt_injective ordinals, days]
  | _ =>
    obtain ⟨n, rfl⟩ := first
    obtain ⟨m, rfl⟩ := second
    rw [itemText_int (by decide), itemText_int (by decide)] at same
    rw [Text.ofInt_injective same]

/-- Items of one part are told apart by their texts, and lists of them by what they are joined to. -/
theorem join_itemText_injective {items values : List Datum} (nonempty : items ≠ [])
    (typed : ∀ d ∈ items, part.Types d) (otherNonempty : values ≠ [])
    (otherTyped : ∀ d ∈ values, part.Types d)
    (same : Text.join [','] (items.map (itemText part)) = Text.join [','] (values.map (itemText part))) :
    items = values := by
  have free {items : List Datum} (typed : ∀ d ∈ items, part.Types d) :
      ∀ text ∈ items.map (itemText part), ',' ∉ text := by
    intro text member
    obtain ⟨d, among, rfl⟩ := List.mem_map.mp member
    exact Text.notMem_of_isToken rfl (all_isToken_of_types (typed d among))
  have texts := Text.join_injective (mt List.map_eq_nil_iff.mp nonempty) (free typed)
    (mt List.map_eq_nil_iff.mp otherNonempty) (free otherTyped) same
  exact Outcome.eq_of_map_eq (fun d member e among =>
    itemText_injective (typed d member) (otherTyped e among)) texts

/-- What a typed rule is written with has no semicolon. -/
theorem IsTyped.undivided (typed : r.IsTyped) {part : Part} {value : Text}
    (written : r.valueText? form part = some value) : ';' ∉ value := by
  have free {text : Text} (tokens : text.all Text.isToken = true) : ';' ∉ text :=
    Text.notMem_of_isToken rfl tokens
  cases part with
  | frequency =>
    obtain ⟨f, same⟩ := typed.frequency
    rw [valueText?, same, Datum.token_frequency] at written
    cases written
    exact free f.all_isToken_name
  | interval =>
    obtain ⟨n, same⟩ := typed.interval
    rw [valueText?, same] at written
    split at written <;> cases written
    exact free (Text.all_isToken_ofInt n)
  | count =>
    rw [valueText?] at written
    split at written <;> cases written
    rename_i given
    obtain ⟨n, same⟩ := typed.count.resolve_left given
    rw [same]
    exact free (Text.all_isToken_ofInt n)
  | ends =>
    rw [valueText?] at written
    split at written <;> cases written
    rename_i given
    obtain ⟨t, same⟩ := typed.ends.resolve_left given
    rw [same]
    exact free (t.all_isToken_utcText _)
  | weekStart =>
    obtain ⟨day, same⟩ := typed.weekStart
    rw [valueText?, same, Datum.token_weekday] at written
    split at written <;> cases written
    exact free day.all_isToken_code
  | list part =>
    rw [valueText?] at written
    split at written <;> cases written
    refine Text.notMem_join (by decide) fun text member => ?_
    obtain ⟨d, among, rfl⟩ := List.mem_map.mp member
    exact free (all_isToken_of_types (typed.types among))

/-- Parts that are left out or written alike are both left out, or neither is and their texts are
the same. -/
theorem both_of_written_eq {left right : Prop} [Decidable left] [Decidable right] {text value : Text}
    (same : (if left then none else some text) = if right then none else some value) :
    (left ∧ right) ∨ (¬left ∧ ¬right ∧ text = value) := by
  split at same <;> split at same
  · rename_i leftOut rightOut
    exact .inl ⟨leftOut, rightOut⟩
  · cases same
  · cases same
  · rename_i leftIn rightIn
    exact .inr ⟨leftIn, rightIn, Option.some.inj same⟩

/-- Parts of typed rules that are written alike, in whatever forms of the end, hold the same. -/
theorem IsTyped.draft_eq (first : r.IsTyped) (second : s.IsTyped) {part : Part}
    (same : r.valueText? form part = s.valueText? other part) : r.draft part = s.draft part := by
  cases part with
  | frequency =>
    obtain ⟨f, known⟩ := first.frequency
    obtain ⟨g, otherKnown⟩ := second.frequency
    rw [valueText?, valueText?, known, otherKnown, Datum.token_frequency, Datum.token_frequency,
      Option.some.injEq] at same
    rw [draft, draft, known, otherKnown, Frequency.name_injective same]
  | interval =>
    obtain ⟨n, known⟩ := first.interval
    obtain ⟨m, otherKnown⟩ := second.interval
    have one (n : Int) (isOne : (Datum.int n).same (.int 1) = true) : n = 1 := by
      simpa [Datum.same, Datum.asNumber?, Datum.sameNumber] using isOne
    rw [valueText?, valueText?, known, otherKnown] at same
    rw [draft, draft, known, otherKnown]
    rcases both_of_written_eq same with ⟨isOne, otherOne⟩ | ⟨_, _, texts⟩
    · rw [one n isOne, one m otherOne]
    · rw [Text.ofInt_injective texts]
  | count =>
    rw [valueText?, valueText?] at same
    rw [draft, draft]
    rcases both_of_written_eq same with ⟨missing, otherMissing⟩ | ⟨given, otherGiven, texts⟩
    · rw [missing, otherMissing]
    · obtain ⟨n, known⟩ := first.count.resolve_left given
      obtain ⟨m, otherKnown⟩ := second.count.resolve_left otherGiven
      rw [known, otherKnown] at texts ⊢
      rw [Text.ofInt_injective texts]
  | ends =>
    rw [valueText?, valueText?] at same
    rw [draft, draft]
    rcases both_of_written_eq same with ⟨missing, otherMissing⟩ | ⟨given, otherGiven, texts⟩
    · rw [missing, otherMissing]
    · obtain ⟨t, known⟩ := first.ends.resolve_left given
      obtain ⟨u, otherKnown⟩ := second.ends.resolve_left otherGiven
      rw [known, otherKnown] at texts ⊢
      -- both are read from the one text
      have read := Timestamp.read_utcText (form == .basic) (r.ends_normal t known)
      have otherRead := Timestamp.read_utcText (other == .basic) (s.ends_normal u otherKnown)
      rw [show t.utcText (form == .basic) = u.utcText (other == .basic) from texts, otherRead] at read
      rw [Except.ok.inj read]
  | weekStart =>
    obtain ⟨day, known⟩ := first.weekStart
    obtain ⟨next, otherKnown⟩ := second.weekStart
    rw [valueText?, valueText?, known, otherKnown, Datum.token_weekday, Datum.token_weekday] at same
    rw [draft, draft, known, otherKnown]
    have codes : day.code = next.code := by
      rcases both_of_written_eq same with ⟨monday, otherMonday⟩ | ⟨_, _, codes⟩
      · rw [monday, otherMonday]
      · exact codes
    rw [Weekday.code_injective codes]
  | list part =>
    rw [valueText?, valueText?] at same
    rw [draft, draft]
    rcases both_of_written_eq same with ⟨empty, otherEmpty⟩ | ⟨some, otherSome, texts⟩
    · rw [List.isEmpty_iff.mp empty, List.isEmpty_iff.mp otherEmpty]
    · rw [join_itemText_injective (mt List.isEmpty_iff.mpr some) (fun _ member => first.types member)
        (mt List.isEmpty_iff.mpr otherSome) (fun _ member => second.types member) texts]

theorem segment_injective {part owner : Part} {value given : Text}
    (same : segment part value = segment owner given) : part = owner ∧ value = given := by
  have cut (part : Part) (value : Text) :
      Text.splitFirst? '=' (segment part value) = some (part.key, value) :=
    Text.splitFirst?_append part.equals_notMem_key value
  have divided := (cut part value).symm.trans ((congrArg _ same).trans (cut owner given))
  rw [Option.some.injEq, Prod.mk.injEq] at divided
  have keys := congrArg Part.ofKey? divided.1
  rw [Part.ofKey?_key, Part.ofKey?_key, Option.some.injEq] at keys
  exact ⟨keys, divided.2⟩

/-- The text of a typed rule tells with what each of its parts is written. -/
theorem written_eq_of_print_eq (first : r.IsTyped) (second : s.IsTyped)
    (same : r.print form = s.print other) : r.written form = s.written other := by
  have nonempty (r : Rule) (form : EndForm) : r.segments form ≠ [] := List.cons_ne_nil _ _
  have free {r : Rule} (typed : r.IsTyped) (form : EndForm) : ∀ text ∈ r.segments form, ';' ∉ text :=
    semicolon_notMem_segments fun _ _ => typed.undivided
  have segments := Text.join_injective (nonempty r form) (free first form) (nonempty s other)
    (free second other) same
  rw [segments_eq, segments_eq] at segments
  refine Outcome.eq_of_map_eq (fun entry _ given _ same => ?_) segments
  exact Prod.ext_iff.mpr (segment_injective same)

/-- Typed rules with the same text are the same rule, even when the two forms of the end differ. -/
theorem IsTyped.eq_of_print_eq (first : r.IsTyped) (second : s.IsTyped)
    (same : r.print form = s.print other) : r = s := by
  have written := written_eq_of_print_eq first second same
  refine draft_injective (funext fun part => ?_)
  have texts : r.valueText? form part = s.valueText? other part := by
    refine Option.ext fun value => ?_
    rw [← mem_written, ← mem_written, written]
  exact first.draft_eq second texts

/-- The canonical text identifies a typed rule: two of them have the same text only when they are
the same rule, whatever its integers are and in whichever forms their ends are written. In one form
the rules with the same text are those that are equal as callers see it. -/
theorem print_identifies (first : r.IsTyped) (second : s.IsTyped) (form other : EndForm) :
    (r.print form = s.print other → r = s) ∧ (r.print form = s.print form ↔ r.same s = true) := by
  refine ⟨first.eq_of_print_eq second, fun same => ?_, fun same => ?_⟩
  · exact (first.same_iff second).mpr (first.eq_of_print_eq second same)
  · rw [(first.same_iff second).mp same]

/-- Two rules that no text gives, for their interval and ordinal are out of range, differ in the order
of their weekdays only, and no form of the end makes their texts the same. -/
theorem print_identifies_order :
    let r : Rule := { bare (.frequency .weekly) with
      interval := .int (-70000)
      count := .int 0
      weekdays := [.nth (.int 0) (.weekday .monday), .every (.weekday .friday)]
      ends := .moment ⟨63876411000, 125000, some 0, by decide, by decide⟩
      ends_normal := fun t same => by cases same; decide }
    let s : Rule := { r with weekdays := r.weekdays.reverse }
    r.IsTyped ∧ s.IsTyped ∧ r.same s = false ∧ ∀ form other, r.print form ≠ s.print other := by
  intro r s
  have typed : r.IsTyped := by
    refine ⟨⟨_, rfl⟩, ⟨_, rfl⟩, .inr ⟨_, rfl⟩, .inr ⟨_, rfl⟩, ⟨_, rfl⟩, fun d member => ?_,
      fun part numeric d member => ?_⟩
    · rcases List.mem_pair.mp member with rfl | rfl
      · exact .inr ⟨0, .monday, rfl⟩
      · exact .inl ⟨.friday, rfl⟩
    · cases part <;> first | exact absurd rfl numeric | exact nomatch member
  have reversed : s.IsTyped := by
    refine ⟨typed.frequency, typed.interval, typed.count, typed.ends, typed.weekStart,
      fun d member => typed.weekdays d (List.mem_reverse.mp member), fun part numeric => ?_⟩
    cases part <;> first | exact absurd rfl numeric | exact fun _ member => nomatch member
  have differ : r ≠ s := fun same => absurd (congrArg Rule.weekdays same) (by decide)
  refine ⟨typed, reversed, rfl, fun form other same => differ ?_⟩
  exact (print_identifies typed reversed form other).1 same

end Recurrence.Rule
