import Recurrence.Proofs.Rule.Body
import Recurrence.Proofs.Rule.Grammar

namespace Recurrence

open Text (trim)

/-- The error of a value that a part does not admit, or of an item where the part
holds a list. -/
def Part.refusal (part : Part) (token : Text) : ReadError :=
  match part with
  | .frequency => .invalidFrequency token
  | .interval => .invalidInterval token
  | .count => .invalidCount token
  | .ends => .invalidEnd token
  | .weekStart => .invalidWeekStart token
  | .list .weekday => .invalidWeekday token
  | .list part => .invalidValue part token

/-- The error of the value of a part. The items of a list are counted first; then
the first one that is not admitted counts. -/
inductive Part.Refuses (limits : Limits) : Part → Text → ReadError → Prop
  | value {part : Part} {value : Text} : (∀ p, part ≠ .list p) → ¬part.Admits limits value →
      Refuses limits part value (part.refusal value)
  | size {part : ListPart} {value : Text} {items : List Text} : Text.Itemizes value items →
      limits.maxListItems < items.length →
      Refuses limits (.list part) value (.tooManyValues part items.length limits.maxListItems)
  | item {part : ListPart} {value token : Text} {before after : List Text} :
      Text.Itemizes value (before ++ token :: after) →
      (before ++ token :: after).length ≤ limits.maxListItems →
      (∀ other ∈ before, part.Admits other) → ¬part.Admits token →
      Refuses limits (.list part) value ((Part.list part).refusal token)

namespace Rule

/-- A segment that gives a part its value: a key in any case and a value, with the
first equals sign between them and blanks around both. -/
def Assigns (segment : Text) (entry : Part × Text) : Prop :=
  ∃ key name value, segment = key ++ '=' :: value ∧ '=' ∉ key ∧ Text.Trims key name ∧
    Text.upper name = entry.1.key ∧ Text.Trims value entry.2

/-- Segments that give values to different parts. -/
structure Lists (segments : List Text) (entries : List (Part × Text)) : Prop where
  each : List.Forall₂ Assigns segments entries
  distinct : (entries.map Prod.fst).Nodup

/-- The error of a segment that gives no value to a part, or gives one to a part
that has been seen before. -/
inductive RefusesSegment (seen : List Part) (segment : Text) : ReadError → Prop
  | malformed : '=' ∉ segment → RefusesSegment seen segment (.malformedSegment segment)
  | unknown {key name value : Text} : segment = key ++ '=' :: value → '=' ∉ key →
      Text.Trims key name → (∀ part : Part, Text.upper name ≠ part.key) →
      RefusesSegment seen segment (.unknownKey (Text.upper name))
  | duplicate {entry : Part × Text} : Assigns segment entry → entry.1 ∈ seen →
      RefusesSegment seen segment (.duplicateKey entry.1)

/-- The texts that are rules under the limits. -/
def IsRuleText (limits : Limits) (text : Text) : Prop :=
  text.length ≤ limits.maxTextLength ∧ ∃ segments entries, HasSegments limits text segments ∧
    Lists segments entries ∧ .frequency ∈ entries.map Prod.fst ∧
    ∀ entry ∈ entries, entry.1.Admits limits entry.2

/-- The error of a text that is no rule. The length counts before anything else;
then the first segment that is refused; then a missing frequency; then the first
value that is refused. -/
inductive Refuses (limits : Limits) (text : Text) : ReadError → Prop
  | length : limits.maxTextLength < text.length →
      Refuses limits text (.tooLong text.length limits.maxTextLength)
  | segment {before after : List Text} {segment : Text} {entries : List (Part × Text)}
      {e : ReadError} : text.length ≤ limits.maxTextLength →
      HasSegments limits text (before ++ segment :: after) → Lists before entries →
      RefusesSegment (entries.map Prod.fst) segment e → Refuses limits text e
  | frequency {segments : List Text} {entries : List (Part × Text)} :
      text.length ≤ limits.maxTextLength → HasSegments limits text segments →
      Lists segments entries → .frequency ∉ entries.map Prod.fst →
      Refuses limits text .missingFrequency
  | value {segments : List Text} {before after : List (Part × Text)} {entry : Part × Text}
      {e : ReadError} : text.length ≤ limits.maxTextLength → HasSegments limits text segments →
      Lists segments (before ++ entry :: after) →
      .frequency ∈ (before ++ entry :: after).map Prod.fst →
      (∀ other ∈ before, other.1.Admits limits other.2) → entry.1.Refuses limits entry.2 e →
      Refuses limits text e

theorem assigns_iff {segment : Text} {entry : Part × Text} :
    Assigns segment entry ↔ ∃ key value, segment = key ++ '=' :: value ∧ '=' ∉ key ∧
      Text.upper (trim key) = entry.1.key ∧ trim value = entry.2 := by
  simp only [Assigns, Text.trims_iff]
  constructor
  · rintro ⟨key, _, value, whole, free, rfl, known, same⟩
    exact ⟨key, value, whole, free, known, same⟩
  · rintro ⟨key, value, whole, free, known, same⟩
    exact ⟨key, _, value, whole, free, rfl, known, same⟩

/-- A result that fails in one way only fails in that way just when it does not
succeed. -/
theorem eq_error_iff_of_only {ε α : Type} {x : Except ε α} {only e : ε}
    (same : ∀ e, x = .error e → e = only) : x = .error e ↔ (¬∃ a, x = .ok a) ∧ e = only := by
  cases x with
  | error other =>
    obtain rfl := same other rfl
    refine ⟨fun failed => ⟨fun ⟨_, made⟩ => (nomatch made), ?_⟩, fun ⟨_, alike⟩ => by rw [alike]⟩
    cases failed
    rfl
  | ok a => exact iff_of_false (fun failed => nomatch failed) fun ⟨missing, _⟩ =>
      missing ⟨a, rfl⟩

theorem readItem_error_iff {part : ListPart} {token : Text} {e : ReadError} :
    readItem part token = .error e ↔
      ¬part.Admits token ∧ e = (Part.list part).refusal token := by
  rw [← readItem_ok_iff]
  refine eq_error_iff_of_only fun e failed => ?_
  cases part <;> simp only [readItem] at failed <;> split at failed <;> cases failed <;> rfl

theorem readList_error_iff {limits : Limits} {part : ListPart} {value : Text} {e : ReadError} :
    readList limits part value = .error e ↔ (Part.list part).Refuses limits value e := by
  have items : Text.Itemizes value ((Text.split ',' value).map trim) := Text.itemizes_iff.mpr rfl
  unfold readList
  dsimp only
  constructor
  · intro failed
    split at failed
    · rename_i many
      cases failed
      exact .size items many
    · rename_i few
      rw [readItems_eq, Outcome.mapM_eq_error_iff] at failed
      obtain ⟨before, token, after, whole, each, failed⟩ := failed
      obtain ⟨refused, rfl⟩ := readItem_error_iff.mp failed
      rw [whole] at items few
      exact .item items (Nat.le_of_not_lt few)
        (fun other member => readItem_ok_iff.mp (each other member)) refused
  · intro refused
    cases refused with
    | value scalar _ => exact absurd rfl (scalar part)
    | size items many =>
      obtain rfl := Text.itemizes_iff.mp items
      rw [if_pos many]
    | @item _ _ token before after items few each refused =>
      rw [Text.itemizes_iff.mp items, if_neg (Nat.not_lt.mpr few), readItems_eq,
        Outcome.mapM_eq_error_iff]
      exact ⟨before, token, after, rfl,
        fun other member => readItem_ok_iff.mpr (each other member),
        readItem_error_iff.mpr ⟨refused, rfl⟩⟩

theorem readValue_error_iff {limits : Limits} {part : Part} {value : Text} {e : ReadError}
    (trimmed : trim value = value) :
    readValue limits part value = .error e ↔ part.Refuses limits value e := by
  by_cases list : ∃ p, part = .list p
  · obtain ⟨p, rfl⟩ := list
    rw [← readList_error_iff, readValue]
    cases readList limits p value with
    | error other =>
      constructor <;> intro failed <;> cases failed <;> rfl
    | ok items =>
      refine iff_of_false ?_ ?_
      · intro made
        cases made
      · intro made
        cases made
  · have scalar : ∀ p, part ≠ .list p := fun p same => list ⟨p, same⟩
    have only : ∀ e, readValue limits part value = .error e → e = part.refusal value := by
      intro e failed
      cases part with
      | list p => exact absurd rfl (scalar p)
      | ends =>
        rw [readValue] at failed
        split at failed
        · split at failed <;> cases failed
          rfl
        · cases failed
          rfl
      | interval | count =>
        rw [readValue] at failed
        split at failed
        · split at failed <;> cases failed
          rfl
        · cases failed
          rfl
      | frequency | weekStart =>
        rw [readValue] at failed
        split at failed <;> cases failed
        rfl
    rw [eq_error_iff_of_only only, readValue_ok_iff trimmed]
    constructor
    · rintro ⟨refused, rfl⟩
      exact .value scalar refused
    · intro refused
      cases refused with
      | value _ refused => exact ⟨refused, rfl⟩
      | size => exact absurd rfl (scalar _)
      | item => exact absurd rfl (scalar _)

/-- Reads one segment, which must not be blank. -/
def readSegment (seen : List Part) (segment : Text) : Except ReadError (Part × Text) :=
  match Text.splitFirst? '=' segment with
  | none => .error (.malformedSegment segment)
  | some (key, value) =>
    match Part.ofKey? (Text.upper (trim key)) with
    | none => .error (.unknownKey (Text.upper (trim key)))
    | some part => if part ∈ seen then .error (.duplicateKey part) else .ok (part, trim value)

theorem readSegments_cons {segment : Text} (filled : Text.isBlankText segment = false)
    (seen : List Part) (rest : List Text) :
    readSegments seen (segment :: rest) = (do
      let entry ← readSegment seen segment
      let others ← readSegments (entry.1 :: seen) rest
      return entry :: others) := by
  rw [readSegments, filled, readSegment]
  split <;> rename_i parted
  · cases parted
  · cases Text.splitFirst? '=' segment with
    | none => rfl
    | some parts =>
      dsimp only
      cases Part.ofKey? (Text.upper (trim parts.1)) with
      | none => rfl
      | some part =>
        dsimp only
        split <;> rfl

theorem readSegment_ok_iff {seen : List Part} {segment : Text} {entry : Part × Text} :
    readSegment seen segment = .ok entry ↔ Assigns segment entry ∧ entry.1 ∉ seen := by
  unfold readSegment
  constructor
  · intro read
    split at read
    · cases read
    · rename_i key value divided
      obtain ⟨whole, free⟩ := Text.splitFirst?_eq_some_iff.mp divided
      split at read
      · cases read
      · rename_i part known
        split at read
        · cases read
        · rename_i unseen
          cases read
          exact ⟨assigns_iff.mpr ⟨key, value, whole, free, Part.ofKey?_eq_some_iff.mp known, rfl⟩,
            unseen⟩
  · rintro ⟨assigns, unseen⟩
    obtain ⟨key, value, whole, free, known, same⟩ := assigns_iff.mp assigns
    rw [Text.splitFirst?_eq_some_iff.mpr ⟨whole, free⟩]
    dsimp only
    rw [Part.ofKey?_eq_some_iff.mpr known]
    dsimp only
    rw [if_neg unseen, same]

theorem readSegment_error_iff {seen : List Part} {segment : Text} {e : ReadError} :
    readSegment seen segment = .error e ↔ RefusesSegment seen segment e := by
  unfold readSegment
  constructor
  · intro failed
    split at failed
    · rename_i undivided
      cases failed
      exact .malformed (Text.splitFirst?_eq_none_iff.mp undivided)
    · rename_i key value divided
      obtain ⟨whole, free⟩ := Text.splitFirst?_eq_some_iff.mp divided
      split at failed
      · rename_i unknown
        cases failed
        refine .unknown whole free (Text.trims_iff.mpr rfl) fun part known => ?_
        rw [Part.ofKey?_eq_some_iff.mpr known] at unknown
        cases unknown
      · rename_i part known
        split at failed
        · rename_i seenBefore
          cases failed
          have assigns : Assigns segment (part, trim value) := assigns_iff.mpr
            ⟨key, value, whole, free, Part.ofKey?_eq_some_iff.mp known, rfl⟩
          exact .duplicate assigns seenBefore
        · cases failed
  · intro refused
    cases refused with
    | malformed free => rw [Text.splitFirst?_eq_none_iff.mpr free]
    | @unknown key _ value whole free trims unknown =>
      obtain rfl := Text.trims_iff.mp trims
      rw [Text.splitFirst?_eq_some_iff.mpr ⟨whole, free⟩]
      dsimp only
      cases found : Part.ofKey? (Text.upper (trim key)) with
      | none => rfl
      | some part => exact absurd (Part.ofKey?_eq_some_iff.mp found) (unknown part)
    | duplicate assigns seenBefore =>
      obtain ⟨key, value, whole, free, known, same⟩ := assigns_iff.mp assigns
      rw [Text.splitFirst?_eq_some_iff.mpr ⟨whole, free⟩]
      dsimp only
      rw [Part.ofKey?_eq_some_iff.mpr known]
      exact if_pos seenBefore

theorem RefusesSegment.congr {seen others : List Part} {segment : Text} {e : ReadError}
    (refused : RefusesSegment seen segment e) (same : ∀ part, part ∈ seen → part ∈ others) :
    RefusesSegment others segment e := by
  cases refused with
  | malformed free => exact .malformed free
  | unknown whole free trims unknown => exact .unknown whole free trims unknown
  | duplicate assigns seenBefore => exact .duplicate assigns (same _ seenBefore)

/-- Entries for different parts that are new after the parts `seen`, one segment at
a time: the part of the first is seen by the others. -/
theorem lists_cons_iff {seen : List Part} {segment : Text} {rest : List Text}
    {entries : List (Part × Text)} :
    (Lists (segment :: rest) entries ∧ ∀ entry ∈ entries, entry.1 ∉ seen) ↔
      ∃ entry others, (Assigns segment entry ∧ entry.1 ∉ seen) ∧
        (Lists rest others ∧ ∀ other ∈ others, other.1 ∉ entry.1 :: seen) ∧
          entry :: others = entries := by
  constructor
  · rintro ⟨⟨each, distinct⟩, fresh⟩
    obtain ⟨entry, others, assigns, later, rfl⟩ := List.forall₂_cons_left_iff.mp each
    rw [List.map_cons, List.nodup_cons, List.mem_map] at distinct
    refine ⟨entry, others, ⟨assigns, fresh entry (List.mem_cons_self ..)⟩,
      ⟨⟨later, distinct.2⟩, fun other member => ?_⟩, rfl⟩
    exact List.not_mem_cons_of_ne_of_not_mem (fun same => distinct.1 ⟨other, member, same⟩)
      (fresh other (List.mem_cons_of_mem _ member))
  · rintro ⟨entry, others, ⟨assigns, unseen⟩, ⟨⟨later, distinct⟩, fresh⟩, rfl⟩
    refine ⟨⟨.cons assigns later, ?_⟩, ?_⟩
    · rw [List.map_cons, List.nodup_cons, List.mem_map]
      refine ⟨?_, distinct⟩
      rintro ⟨other, member, same⟩
      exact fresh other member (same ▸ List.mem_cons_self ..)
    · intro other member
      rcases List.mem_cons.mp member with rfl | member
      · exact unseen
      · exact List.not_mem_of_not_mem_cons (fresh other member)

theorem readSegments_ok_iff {seen : List Part} {segments : List Text}
    {entries : List (Part × Text)} :
    readSegments seen segments = .ok entries ↔
      Lists (filled segments) entries ∧ ∀ entry ∈ entries, entry.1 ∉ seen := by
  induction segments generalizing seen entries with
  | nil =>
    rw [readSegments, Except.ok.injEq]
    constructor
    · rintro rfl
      exact ⟨⟨.nil, List.nodup_nil⟩, List.forall_mem_nil _⟩
    · rintro ⟨⟨each, _⟩, _⟩
      exact (List.forall₂_nil_left_iff.mp each).symm
  | cons segment rest ih =>
    cases blank : Text.isBlankText segment with
    | true => rw [readSegments, if_pos blank, filled_cons_of_blank blank, ih]
    | false =>
      rw [readSegments_cons blank, filled_cons_of_shown blank, lists_cons_iff]
      simp only [Outcome.bind_eq_ok, Outcome.pure_eq_ok, readSegment_ok_iff, ih]
      constructor
      · rintro ⟨entry, first, others, later, whole⟩
        exact ⟨entry, others, first, later, whole⟩
      · rintro ⟨entry, others, first, later, whole⟩
        exact ⟨entry, first, others, later, whole⟩

/-- Reading segments fails at the first one that is refused after the parts `seen`
and those that the segments before it give. -/
theorem readSegments_error_iff {seen : List Part} {segments : List Text} {e : ReadError} :
    readSegments seen segments = .error e ↔ ∃ before segment after entries,
      filled segments = before ++ segment :: after ∧
        (Lists before entries ∧ ∀ entry ∈ entries, entry.1 ∉ seen) ∧
          RefusesSegment (entries.map Prod.fst ++ seen) segment e := by
  induction segments generalizing seen with
  | nil =>
    refine iff_of_false ?_ ?_
    · intro failed
      cases failed
    · rintro ⟨before, segment, after, entries, whole, _⟩
      cases before <;> cases whole
  | cons segment rest ih =>
    cases blank : Text.isBlankText segment with
    | true => rw [readSegments, if_pos blank, filled_cons_of_blank blank, ih]
    | false =>
      rw [readSegments_cons blank, filled_cons_of_shown blank]
      simp only [Outcome.bind_eq_error, readSegment_ok_iff, readSegment_error_iff, ih]
      constructor
      · rintro (refused | ⟨entry, first, later | ⟨_, _, made⟩⟩)
        · exact ⟨[], segment, filled rest, [], rfl,
            ⟨⟨.nil, List.nodup_nil⟩, List.forall_mem_nil _⟩, refused⟩
        · obtain ⟨before, other, after, entries, whole, listed, refused⟩ := later
          refine ⟨segment :: before, other, after, entry :: entries, by rw [whole]; rfl,
            lists_cons_iff.mpr ⟨entry, entries, first, listed, rfl⟩, refused.congr ?_⟩
          simp only [List.mem_append, List.mem_cons, List.map_cons]
          tauto
        · cases made
      · rintro ⟨before, other, after, entries, whole, listed, refused⟩
        cases before with
        | nil =>
          cases whole
          cases listed.1.each
          exact .inl refused
        | cons first before =>
          rw [List.cons_append, List.cons.injEq] at whole
          obtain ⟨rfl, whole⟩ := whole
          obtain ⟨entry, others, assigned, later, rfl⟩ := lists_cons_iff.mp listed
          refine .inr ⟨entry, assigned, .inl ⟨before, other, after, others, whole, later, ?_⟩⟩
          refine refused.congr ?_
          simp only [List.mem_append, List.mem_cons, List.map_cons]
          tauto

/-- The values that segments give have nothing to trim. -/
theorem Lists.trimmed {segments : List Text} {entries : List (Part × Text)}
    (listed : Lists segments entries) {entry : Part × Text} (member : entry ∈ entries) :
    trim entry.2 = entry.2 := by
  obtain ⟨_, _, assigns⟩ := Outcome.exists_of_mem_right listed.each member
  obtain ⟨_, _, _, _, _, same⟩ := assigns_iff.mp assigns
  rw [← same, Text.trim_trim]

theorem readSegments_textSegments {limits : Limits} {text : Text} {entries : List (Part × Text)} :
    readSegments [] (Text.split ';' (body limits text)) = .ok entries ↔
      Lists (textSegments limits text) entries := by
  rw [readSegments_ok_iff]
  exact and_iff_left fun _ _ => List.not_mem_nil

/-- Reading in stages: the length, the segments, the frequency, the values. -/
theorem read_eq_of_lists {limits : Limits} {text : Text} {entries : List (Part × Text)}
    (short : text.length ≤ limits.maxTextLength)
    (listed : Lists (textSegments limits text) entries) :
    read limits text = if .frequency ∈ entries.map Prod.fst then
      (entries.mapM fun entry => readValue limits entry.1 entry.2).map ofSettings
      else .error .missingFrequency := by
  have named : (entries.any fun entry => entry.1 = .frequency) = true ↔
      .frequency ∈ entries.map Prod.fst := by
    simp only [List.any_eq_true, decide_eq_true_eq, List.mem_map]
  rw [read, if_neg (Nat.not_lt.mpr short), readSegments_textSegments.mpr listed, ← readValues_eq]
  simp only [bind, Except.bind, named]
  split
  · cases readValues limits entries <;> rfl
  · rfl

theorem isRuleText_iff {limits : Limits} {text : Text} :
    IsRuleText limits text ↔ text.length ≤ limits.maxTextLength ∧
      ∃ entries, Lists (textSegments limits text) entries ∧
        .frequency ∈ entries.map Prod.fst ∧ ∀ entry ∈ entries, entry.1.Admits limits entry.2 := by
  constructor
  · rintro ⟨short, segments, entries, has, rest⟩
    obtain rfl := hasSegments_iff.mp has
    exact ⟨short, entries, rest⟩
  · rintro ⟨short, entries, rest⟩
    exact ⟨short, _, entries, hasSegments_iff.mpr rfl, rest⟩

/-- A text is read just when it is in the grammar. -/
theorem read_ok_iff {limits : Limits} {text : Text} :
    (∃ r, read limits text = .ok r) ↔ IsRuleText limits text := by
  rw [isRuleText_iff]
  constructor
  · rintro ⟨r, made⟩
    have short : text.length ≤ limits.maxTextLength := by
      by_contra long
      rw [read, if_pos (Nat.lt_of_not_le long)] at made
      cases made
    cases segments : readSegments [] (Text.split ';' (body limits text)) with
    | error e =>
      rw [read, if_neg (Nat.not_lt.mpr short), segments] at made
      cases made
    | ok entries =>
      have listed := readSegments_textSegments.mp segments
      rw [read_eq_of_lists short listed] at made
      split at made
      · rename_i named
        refine ⟨short, entries, listed, named, fun entry member => ?_⟩
        cases values : entries.mapM fun entry => readValue limits entry.1 entry.2 with
        | error e =>
          rw [values] at made
          cases made
        | ok settings =>
          exact (readValue_ok_iff (listed.trimmed member)).mp
            (Outcome.mapM_ok_iff.mp ⟨settings, values⟩ entry member)
      · cases made
  · rintro ⟨short, entries, listed, named, admitted⟩
    obtain ⟨settings, values⟩ := Outcome.mapM_ok_iff.mpr fun entry member =>
      (readValue_ok_iff (listed.trimmed member)).mpr (admitted entry member)
    rw [read_eq_of_lists short listed, if_pos named, values]
    exact ⟨ofSettings settings, rfl⟩

/-- A text is refused with an error just when the error is the one that the grammar
determines. -/
theorem read_error_iff {limits : Limits} {text : Text} {e : ReadError} :
    read limits text = .error e ↔ Refuses limits text e := by
  constructor
  · intro failed
    have has : HasSegments limits text (textSegments limits text) := hasSegments_iff.mpr rfl
    by_cases short : text.length ≤ limits.maxTextLength
    · cases segments : readSegments [] (Text.split ';' (body limits text)) with
      | error other =>
        rw [read, if_neg (Nat.not_lt.mpr short), segments] at failed
        cases failed
        obtain ⟨before, segment, after, entries, whole, ⟨listed, _⟩, refused⟩ :=
          readSegments_error_iff.mp segments
        rw [List.append_nil] at refused
        exact .segment short (hasSegments_iff.mpr whole) listed refused
      | ok entries =>
        have listed := readSegments_textSegments.mp segments
        rw [read_eq_of_lists short listed] at failed
        split at failed
        · rename_i named
          cases values : entries.mapM fun entry => readValue limits entry.1 entry.2 with
          | ok settings =>
            rw [values] at failed
            cases failed
          | error other =>
            rw [values] at failed
            cases failed
            obtain ⟨before, entry, after, rfl, each, failed⟩ := Outcome.mapM_eq_error_iff.mp values
            refine .value short has listed named (fun other member => ?_) ?_
            · exact (readValue_ok_iff (listed.trimmed (List.mem_append_left _ member))).mp
                (each other member)
            · exact (readValue_error_iff (listed.trimmed
                (List.mem_append_right _ (List.mem_cons_self ..)))).mp failed
        · rename_i unnamed
          cases failed
          exact .frequency short has listed unnamed
    · have long := Nat.lt_of_not_le short
      rw [read, if_pos long] at failed
      cases failed
      exact .length long
  · intro refused
    cases refused with
    | length long => rw [read, if_pos long]
    | @segment before after segment entries _ short has listed refused =>
      have segments : readSegments [] (Text.split ';' (body limits text)) = .error e := by
        refine readSegments_error_iff.mpr ⟨before, segment, after, entries, hasSegments_iff.mp has,
          ⟨listed, fun _ _ => List.not_mem_nil⟩, ?_⟩
        rwa [List.append_nil]
      rw [read, if_neg (Nat.not_lt.mpr short), segments]
      rfl
    | frequency short has listed unnamed =>
      obtain rfl := hasSegments_iff.mp has
      rw [read_eq_of_lists short listed, if_neg unnamed]
    | @value _ before after entry _ short has listed named admitted refused =>
      obtain rfl := hasSegments_iff.mp has
      have values : (before ++ entry :: after).mapM
          (fun entry => readValue limits entry.1 entry.2) = .error e := by
        refine Outcome.mapM_eq_error_iff.mpr ⟨before, entry, after, rfl, fun other member => ?_, ?_⟩
        · exact (readValue_ok_iff (listed.trimmed (List.mem_append_left _ member))).mpr
            (admitted other member)
        · exact (readValue_error_iff (listed.trimmed
            (List.mem_append_right _ (List.mem_cons_self ..)))).mpr refused
      rw [read_eq_of_lists short listed, if_pos named, values]
      rfl

end Rule

end Recurrence
