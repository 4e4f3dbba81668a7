import Recurrence.Proofs.Calendar.TimestampExchange
import Recurrence.Proofs.Interchange.Conversion
import Recurrence.Proofs.Rule.Building

namespace Recurrence

theorem Timestamp.isNormal_iff {t : Timestamp} :
    t.isNormal = true ↔ t.offset = some 0 ∧ t.micros % 1000 = 0 := by
  simp only [isNormal, Bool.and_eq_true, beq_iff_eq]

namespace Part

/-- The form in which rules keep a value that is offered for a part: in list parts a tuple, and
for a moment at the end that moment in UTC, cut to milliseconds. -/
def normalize (part : Part) (d : Datum) : Except Fault Datum :=
  match part with
  | .list _ => d.toItems.map Datum.tuple
  | .ends => (Rule.normalEnd d).map Subtype.val
  | _ => .ok d

/-- Whether a value has the form in which rules keep it in a part. -/
def IsNormal (part : Part) (d : Datum) : Prop :=
  match part with
  | .list _ => ∃ items, d = .tuple items
  | .ends => ∀ t, d = .moment t → t.offset = some 0 ∧ t.micros % 1000 = 0
  | _ => True

variable {part : Part} {d e : Datum}

theorem isNormal_of_normalize (kept : part.normalize d = .ok e) : part.IsNormal e := by
  cases part with
  | list part =>
    obtain ⟨items, _, rfl⟩ := Outcome.map_eq_ok.mp kept
    exact ⟨items, rfl⟩
  | ends =>
    obtain ⟨⟨_, normal⟩, _, rfl⟩ := Outcome.map_eq_ok.mp kept
    exact fun t same => Timestamp.isNormal_iff.mp (normal t same)
  | _ => trivial

theorem normalize_of_isNormal (normal : part.IsNormal d) : part.normalize d = .ok d := by
  cases part with
  | list part =>
    obtain ⟨items, rfl⟩ := normal
    rfl
  | ends =>
    unfold normalize
    rw [Rule.normalEnd_of_normal d fun t same => Timestamp.isNormal_iff.mpr (normal t same)]
    rfl
  | _ => rfl

/-- A moment at the end stays the same moment, up to the part of a millisecond that is cut off. -/
theorem instant_of_normalize_ends {t : Timestamp} (kept : ends.normalize (.moment t) = .ok e) :
    ∃ u, e = .moment u ∧ u.offset = some 0 ∧ u.instant = t.instant - t.instant % 1000 := by
  obtain ⟨⟨d, _⟩, found, rfl⟩ := Outcome.map_eq_ok.mp kept
  obtain ⟨u, _, normal, kept⟩ | ⟨_, failed⟩ := Rule.normalEnd_moment t
  · cases found.symm.trans kept
    exact ⟨u, rfl, Timestamp.instant_of_normalize? normal⟩
  · cases found.symm.trans failed

end Part

namespace Rule

variable {r s t u : Rule} {draft : Draft} {changes first second : Entries} {part : Part}

theorem isNormal_draft (r : Rule) (part : Part) : part.IsNormal (r.draft part) := by
  cases part with
  | list part => exact ⟨_, rfl⟩
  | ends => exact fun t same => Timestamp.isNormal_iff.mp (r.ends_normal t same)
  | _ => trivial

/-- Whether a rule holds the normal form of each value of a draft. -/
def Normalizes (r : Rule) (draft : Draft) : Prop :=
  ∀ part : Part, part.normalize (draft part) = .ok (r.draft part)

theorem ofDraft_ok_iff_normalizes : ofDraft draft = .ok r ↔ r.Normalizes draft := by
  rw [ofDraft_ok_iff]
  constructor
  · intro made part
    cases part with
    | frequency => exact congrArg Except.ok made.frequency.symm
    | interval => exact congrArg Except.ok made.interval.symm
    | count => exact congrArg Except.ok made.count.symm
    | ends => exact made.ends
    | weekStart => exact congrArg Except.ok made.weekStart.symm
    | list part => exact Outcome.map_eq_ok.mpr ⟨_, made.values part, rfl⟩
  · intro kept
    refine {
      frequency := (Except.ok.inj (kept .frequency)).symm
      interval := (Except.ok.inj (kept .interval)).symm
      count := (Except.ok.inj (kept .count)).symm
      weekStart := (Except.ok.inj (kept .weekStart)).symm
      ends := kept .ends
      values := fun part => ?_ }
    obtain ⟨items, offered, same⟩ := Outcome.map_eq_ok.mp (kept (.list part))
    cases same
    exact offered

theorem exists_ofDraft_iff :
    (∃ r, ofDraft draft = .ok r) ↔ ∀ part : Part, ∃ e, part.normalize (draft part) = .ok e := by
  refine ⟨fun ⟨r, made⟩ part => ⟨_, ofDraft_ok_iff_normalizes.mp made part⟩, fun each => ?_⟩
  choose kept normalized using each
  have lists (part : ListPart) : ∃ items, kept (.list part) = .tuple items :=
    Part.isNormal_of_normalize (normalized (.list part))
  choose items same using lists
  let r : Rule := {
    frequency := kept .frequency
    interval := kept .interval
    count := kept .count
    ends := kept .ends
    weekStart := kept .weekStart
    setPositions := items .setPosition
    months := items .month
    monthDays := items .monthDay
    yearDays := items .yearDay
    weekNumbers := items .weekNumber
    weekdays := items .weekday
    hours := items .hour
    minutes := items .minute
    seconds := items .second
    ends_normal := fun t same =>
      Timestamp.isNormal_iff.mpr (Part.isNormal_of_normalize (normalized .ends) t same) }
  refine ⟨r, ofDraft_ok_iff_normalizes.mpr fun part => ?_⟩
  rw [normalized part]
  cases part with
  | list part =>
    rw [same]
    cases part <;> rfl
  | _ => rfl

theorem areKnown_of_replace (replaced : r.replace changes = .ok s) : changes.AreKnown := by
  unfold replace at replaced
  split at replaced
  · cases replaced
  · rename_i values recognized
    exact Draft.exists_partsOf?_iff.mp ⟨values, recognized⟩

theorem replace_of_areKnown (known : changes.AreKnown) :
    r.replace changes = ofDraft (r.draft.update changes) := by
  obtain ⟨values, recognized⟩ := Draft.exists_partsOf?_iff.mpr known
  unfold replace
  rw [recognized]
  exact congrArg ofDraft (Draft.setAll_eq_update recognized r.draft)

/-- The named parts get the normal form of what is given for them, and the others stay. -/
theorem replace_ok_iff :
    r.replace changes = .ok s ↔ changes.AreKnown ∧ s.Normalizes (r.draft.update changes) := by
  constructor
  · intro replaced
    have known := areKnown_of_replace replaced
    rw [replace_of_areKnown known, ofDraft_ok_iff_normalizes] at replaced
    exact ⟨known, replaced⟩
  · rintro ⟨known, kept⟩
    rw [replace_of_areKnown known, ofDraft_ok_iff_normalizes]
    exact kept

/-- Whether values can be replaced does not depend on the rule. -/
theorem exists_replace_iff :
    (∃ s, r.replace changes = .ok s) ↔ changes.AreKnown ∧
      ∀ (part : Part) value, changes.given? part = some value →
        ∃ e, part.normalize value = .ok e := by
  constructor
  · rintro ⟨s, replaced⟩
    obtain ⟨known, kept⟩ := replace_ok_iff.mp replaced
    refine ⟨known, fun part value given => ⟨s.draft part, ?_⟩⟩
    rw [← kept part, Draft.update_of_named given]
  · rintro ⟨known, each⟩
    rw [replace_of_areKnown known, exists_ofDraft_iff]
    intro part
    cases given : changes.given? part with
    | none =>
      rw [Draft.update_of_unnamed given]
      exact ⟨_, Part.normalize_of_isNormal (r.isNormal_draft part)⟩
    | some value =>
      rw [Draft.update_of_named given]
      exact each part value given

theorem draft_replace_of_unnamed (replaced : r.replace changes = .ok s)
    (unnamed : changes.given? part = none) : s.draft part = r.draft part := by
  have kept := (replace_ok_iff.mp replaced).2 part
  rw [Draft.update_of_unnamed unnamed, Part.normalize_of_isNormal (r.isNormal_draft part)] at kept
  exact (Except.ok.inj kept).symm

theorem draft_replace_of_named (replaced : r.replace changes = .ok s) {value : Datum}
    (named : changes.given? part = some value) : part.normalize value = .ok (s.draft part) := by
  have kept := (replace_ok_iff.mp replaced).2 part
  rwa [Draft.update_of_named named] at kept

/-- Whether each entry names a part and holds what the rule has there. -/
def Holds (r : Rule) (own : Entries) : Prop :=
  ∀ entry ∈ own, ∃ part : Part, entry = (part.name.toList, r.draft part)

theorem Holds.areKnown {own : Entries} (holds : r.Holds own) : own.AreKnown := by
  intro entry member
  obtain ⟨part, rfl⟩ := holds entry member
  exact ⟨part, rfl⟩

theorem Holds.eq_of_given? {own : Entries} (holds : r.Holds own) {value : Datum}
    (given : own.given? part = some value) : value = r.draft part := by
  obtain ⟨other, same⟩ := holds _ (Entries.mem_of_given? given)
  obtain ⟨names, rfl⟩ := Prod.mk.inj same
  rw [Part.name_injective names]

/-- Replacing values of a rule with themselves gives the rule. -/
theorem replace_of_holds {own : Entries} (holds : r.Holds own) : r.replace own = .ok r := by
  have same : r.draft.update own = r.draft := by
    funext part
    cases given : own.given? part with
    | none => exact Draft.update_of_unnamed given _
    | some value => exact (Draft.update_of_named given _).trans (holds.eq_of_given? given)
  rw [replace_of_areKnown holds.areKnown, same, ofDraft_draft]

/-- A rule is made of names that are parts', the frequency among them, and the values that are left
out are the default ones. -/
theorem ofNamed_of_areKnown (known : changes.AreKnown) {value : Datum}
    (frequent : changes.given? .frequency = some value) :
    ofNamed changes = ofDraft (Draft.default.update changes) := by
  obtain ⟨values, recognized⟩ := Draft.exists_partsOf?_iff.mpr known
  have named : (values.any fun entry => entry.1 = .frequency) = true := by
    obtain ⟨entry, member, found, _⟩ := Outcome.exists_of_mem_left
      (Draft.partsOf?_eq_some_iff.mp recognized) (Entries.mem_of_given? frequent)
    rw [Part.ofName?_name] at found
    exact List.any_eq_true.mpr ⟨entry, member, decide_eq_true (Option.some.inj found).symm⟩
  unfold ofNamed
  simp only [recognized, named, if_true]
  exact congrArg ofDraft (Draft.setAll_eq_update recognized Draft.default)

/-- Making a rule of all that a rule holds gives the rule. -/
theorem ofNamed_of_holds {own : Entries} (holds : r.Holds own)
    (whole : ∀ part, own.given? part ≠ none) : ofNamed own = .ok r := by
  obtain ⟨value, frequent⟩ := Option.ne_none_iff_exists'.mp (whole .frequency)
  have same : Draft.default.update own = r.draft := by
    funext part
    obtain ⟨value, given⟩ := Option.ne_none_iff_exists'.mp (whole part)
    exact (Draft.update_of_named given _).trans (holds.eq_of_given? given)
  rw [ofNamed_of_areKnown holds.areKnown frequent, same, ofDraft_draft]

/-- What can be replaced in a rule one and one can be replaced in both orders, with the same
result, when no part is named twice. -/
theorem exists_replace_both (apart : (first.map Prod.fst).Disjoint (second.map Prod.fst))
    (one : r.replace first = .ok s) (other : r.replace second = .ok t) :
    ∃ u, s.replace second = .ok u ∧ t.replace first = .ok u := by
  obtain ⟨u, later⟩ : ∃ u, s.replace second = .ok u :=
    exists_replace_iff.mpr (exists_replace_iff.mp ⟨t, other⟩)
  refine ⟨u, later, replace_ok_iff.mpr ⟨(replace_ok_iff.mp one).1, fun part => ?_⟩⟩
  cases named : first.given? part with
  | some value =>
    have unnamed : second.given? part = none :=
      (Entries.given?_eq_none_or apart part).resolve_left (by rw [named]; nofun)
    rw [Draft.update_of_named named, draft_replace_of_unnamed later unnamed]
    exact draft_replace_of_named one named
  | none =>
    have same : t.draft part = u.draft part := by
      cases given : second.given? part with
      | none =>
        rw [draft_replace_of_unnamed other given, draft_replace_of_unnamed later given,
          draft_replace_of_unnamed one named]
      | some value =>
        have kept := draft_replace_of_named other given
        rw [draft_replace_of_named later given] at kept
        exact (Except.ok.inj kept).symm
    rw [Draft.update_of_unnamed named, Part.normalize_of_isNormal (t.isNormal_draft part), same]

/-- Replacements that name no part in common change places. -/
theorem replace_comm (apart : (first.map Prod.fst).Disjoint (second.map Prod.fst)) :
    (r.replace first >>= fun s => s.replace second) = .ok u ↔
      (r.replace second >>= fun t => t.replace first) = .ok u := by
  have onward {first second : Entries}
      (apart : (first.map Prod.fst).Disjoint (second.map Prod.fst))
      (replaced : (r.replace first >>= fun s => s.replace second) = .ok u) :
      (r.replace second >>= fun t => t.replace first) = .ok u := by
    obtain ⟨s, one, later⟩ := Outcome.bind_eq_ok.mp replaced
    obtain ⟨t, other⟩ : ∃ t, r.replace second = .ok t :=
      exists_replace_iff.mpr (exists_replace_iff.mp ⟨u, later⟩)
    obtain ⟨v, reached, back⟩ := exists_replace_both apart one other
    obtain rfl : u = v := Except.ok.inj (later.symm.trans reached)
    exact Outcome.bind_eq_ok.mpr ⟨t, other, back⟩
  exact ⟨onward apart, onward (List.disjoint_symm apart)⟩

end Rule

end Recurrence
