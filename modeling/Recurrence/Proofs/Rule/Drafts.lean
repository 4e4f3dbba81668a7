import Recurrence.Proofs.Outcome
import Recurrence.Rule.Basic

namespace Recurrence

theorem Part.name_of_ofName? {t : Text} {part : Part} (found : ofName? t = some part) :
    part.name.toList = t := by
  simpa using List.find?_some found

theorem Part.name_injective {first second : Part} (same : first.name.toList = second.name.toList) :
    first = second := by
  have found := Part.ofName?_name first
  rw [same, Part.ofName?_name] at found
  exact (Option.some.inj found).symm

namespace Entries

/-- Whether all names are names of parts. -/
def AreKnown (named : Entries) : Prop := ∀ entry ∈ named, ∃ part : Part, part.name.toList = entry.1

/-- The value that is given under the name of a part, the last one if there are several. -/
def given? (named : Entries) (part : Part) : Option Datum := named.reverse.lookup part.name.toList

theorem given?_eq_none_iff {named : Entries} {part : Part} :
    named.given? part = none ↔ ∀ entry ∈ named, entry.1 ≠ part.name.toList := by
  unfold given?
  rw [List.lookup_eq_none_iff]
  simp only [List.mem_reverse, bne_iff_ne, ne_comm]

theorem mem_of_given? {named : Entries} {part : Part} {value : Datum}
    (given : named.given? part = some value) : (part.name.toList, value) ∈ named := by
  obtain ⟨before, after, whole, _⟩ := List.lookup_eq_some_iff.mp given
  rw [← List.mem_reverse, whole]
  exact List.mem_append_right _ (List.mem_cons_self ..)

/-- Among names that two mappings do not share no part is named by both. -/
theorem given?_eq_none_or {first second : Entries}
    (apart : (first.map Prod.fst).Disjoint (second.map Prod.fst)) (part : Part) :
    first.given? part = none ∨ second.given? part = none := by
  rw [or_iff_not_imp_left]
  intro named
  obtain ⟨value, given⟩ := Option.ne_none_iff_exists'.mp named
  rw [given?_eq_none_iff]
  intro entry member same
  exact apart (List.mem_map_of_mem (mem_of_given? given))
    (List.mem_map.mpr ⟨entry, member, same⟩)

theorem given?_cons (entry : Text × Datum) (named : Entries) (part : Part) :
    Entries.given? (entry :: named) part =
      (named.given? part).or (if entry.1 = part.name.toList then some entry.2 else none) := by
  unfold given?
  rw [List.reverse_cons, List.lookup_append, List.lookup_cons, List.lookup_nil]
  by_cases same : entry.1 = part.name.toList
  · rw [if_pos same, same, beq_self_eq_true]
  · rw [if_neg same, beq_eq_false_iff_ne.mpr (Ne.symm same)]

end Entries

namespace Draft

/-- The names of values are recognized one by one. -/
theorem partsOf?_eq_some_iff {named : List (Text × Datum)} {values : List (Part × Datum)} :
    partsOf? named = some values ↔
      List.Forall₂ (fun entry value => Part.ofName? entry.1 = some value.1 ∧ entry.2 = value.2)
        named values := by
  induction named generalizing values with
  | nil =>
    rw [List.forall₂_nil_left_iff, partsOf?, Option.some.injEq]
    exact eq_comm
  | cons entry named ih =>
    simp only [partsOf?, bind, Option.bind_eq_some_iff, pure, Option.some.injEq,
      List.forall₂_cons_left_iff]
    constructor
    · rintro ⟨part, known, others, later, rfl⟩
      exact ⟨_, _, ⟨known, rfl⟩, ih.mp later, rfl⟩
    · rintro ⟨value, others, ⟨known, same⟩, later, rfl⟩
      exact ⟨value.1, known, others, ih.mpr later, by rw [same]⟩

theorem exists_partsOf? {named : List (Text × Datum)}
    (known : ∀ entry ∈ named, ∃ part, Part.ofName? entry.1 = some part) :
    ∃ values, partsOf? named = some values := by
  induction named with
  | nil => exact ⟨[], rfl⟩
  | cons entry named ih =>
    obtain ⟨part, found⟩ := known entry (List.mem_cons_self ..)
    obtain ⟨values, later⟩ := ih fun other member => known other (List.mem_cons_of_mem _ member)
    exact ⟨(part, entry.2) :: values, by rw [partsOf?, found, later]; rfl⟩

theorem exists_partsOf?_iff {named : Entries} :
    (∃ values, partsOf? named = some values) ↔ named.AreKnown := by
  constructor
  · rintro ⟨values, recognized⟩ entry member
    obtain ⟨value, _, known, _⟩ :=
      Outcome.exists_of_mem_left (partsOf?_eq_some_iff.mp recognized) member
    exact ⟨value.1, Part.name_of_ofName? known⟩
  · intro known
    refine exists_partsOf? fun entry member => ?_
    obtain ⟨part, name⟩ := known entry member
    exact ⟨part, name ▸ Part.ofName?_name part⟩

/-- Setting values leaves a part alike in two drafts in which it was alike. -/
theorem setAll_congr {draft other : Draft} {part : Part} (same : draft part = other part)
    (values : List (Part × Datum)) : draft.setAll values part = other.setAll values part := by
  induction values generalizing draft other with
  | nil => exact same
  | cons value values ih =>
    have step : draft.set value.1 value.2 part = other.set value.1 value.2 part := by
      rw [set, set, same]
    exact ih step

theorem setAll_of_absent {draft : Draft} {part : Part} {values : List (Part × Datum)}
    (absent : ∀ value ∈ values, value.1 ≠ part) : draft.setAll values part = draft part := by
  induction values generalizing draft with
  | nil => rfl
  | cons value values ih =>
    have step : draft.set value.1 value.2 part = draft part :=
      if_neg (absent value (List.mem_cons_self ..)).symm
    exact (ih fun other member => absent other (List.mem_cons_of_mem _ member)).trans step

theorem default_of_unnamed {values : List (Part × Datum)} {part : Part}
    (unnamed : ¬(values.any fun value => value.1 = part) = true) :
    Draft.default.setAll values part = Draft.default part := by
  refine setAll_of_absent fun value member same => unnamed (List.any_eq_true.mpr ⟨value, member, ?_⟩)
  rw [same, decide_eq_true rfl]

/-- Of values for different parts each one stays. -/
theorem setAll_of_mem {draft : Draft} {values : List (Part × Datum)}
    (distinct : (values.map Prod.fst).Nodup) {value : Part × Datum} (member : value ∈ values) :
    draft.setAll values value.1 = value.2 := by
  induction values generalizing draft with
  | nil => cases member
  | cons first values ih =>
    rw [List.map_cons, List.nodup_cons] at distinct
    change (draft.set first.1 first.2).setAll values value.1 = value.2
    rcases List.mem_cons.mp member with rfl | member
    · rw [setAll_of_absent fun other among same => distinct.1 (List.mem_map.mpr ⟨other, among, same⟩)]
      exact if_pos rfl
    · exact ih distinct.2 member

/-- Values that another draft has give that draft, when it is the same in the other parts. -/
theorem setAll_eq {draft other : Draft} {values : List (Part × Datum)}
    (given : ∀ value ∈ values, value.2 = other value.1)
    (same : ∀ part, (∀ value ∈ values, value.1 ≠ part) → other part = draft part) :
    draft.setAll values = other := by
  induction values generalizing draft with
  | nil => exact funext fun part => (same part fun _ member => nomatch member).symm
  | cons first values ih =>
    refine ih (fun value member => given value (List.mem_cons_of_mem _ member)) fun part absent => ?_
    change other part = draft.set first.1 first.2 part
    unfold set
    split
    · rename_i here
      rw [here, given first (List.mem_cons_self ..)]
    · rename_i different
      refine same part fun value member => ?_
      rcases List.mem_cons.mp member with rfl | later
      · exact Ne.symm different
      · exact absent value later

/-- The draft with the values that are given for the named parts. -/
def update (draft : Draft) (named : Entries) : Draft :=
  fun part => (named.given? part).getD (draft part)

theorem update_of_named {named : Entries} {part : Part} {value : Datum}
    (given : named.given? part = some value) (draft : Draft) :
    draft.update named part = value := by
  rw [update, given, Option.getD_some]

theorem update_of_unnamed {named : Entries} {part : Part} (unnamed : named.given? part = none)
    (draft : Draft) : draft.update named part = draft part := by
  rw [update, unnamed, Option.getD_none]

/-- Setting values one after the other leaves the last one that is given for a part. -/
theorem setAll_eq_update {named : Entries} {values : List (Part × Datum)}
    (recognized : partsOf? named = some values) (draft : Draft) :
    draft.setAll values = draft.update named := by
  have each := partsOf?_eq_some_iff.mp recognized
  clear recognized
  induction each generalizing draft with
  | nil => rfl
  | @cons entry value named values both _ ih =>
    obtain ⟨known, same⟩ := both
    funext part
    have here : entry.1 = part.name.toList ↔ part = value.1 := by
      refine ⟨fun names => ?_, fun parts => parts ▸ (Part.name_of_ofName? known).symm⟩
      rw [names, Part.ofName?_name] at known
      exact Option.some.inj known
    change (draft.set value.1 value.2).setAll values part = _
    rw [ih, update, update, Entries.given?_cons, same]
    cases Entries.given? named part with
    | some last => rfl
    | none =>
      simp only [here, Option.getD_none, Option.none_or, set]
      split <;> rfl

end Draft

end Recurrence
