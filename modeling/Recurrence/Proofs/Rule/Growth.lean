import Mathlib.Algebra.Order.BigOperators.Group.List
import Mathlib.Data.List.Perm.Subperm
import Recurrence.Proofs.Rule.Entries

namespace Recurrence

open Text (trim)

namespace Text

/-- The characters of texts, and one more for each of them. -/
def weight (texts : List Text) : Nat := (texts.map fun text => text.length + 1).sum

theorem length_join_add_one {sep : Char} {pieces : List Text} (nonempty : pieces ≠ []) :
    (join [sep] pieces).length + 1 = weight pieces := by
  induction pieces with
  | nil => exact absurd rfl nonempty
  | cons piece pieces ih =>
    cases pieces with
    | nil => rfl
    | cons next others =>
      have rest := ih (List.cons_ne_nil _ _)
      rw [weight, List.map_cons, List.sum_cons, ← weight, ← rest, join, List.length_append,
        List.length_append, List.length_singleton]
      · omega
      · exact List.cons_ne_nil _ _

theorem weight_filter_le (texts : List Text) (keep : Text → Bool) :
    weight (texts.filter keep) ≤ weight texts :=
  (List.filter_sublist.map _).sum_le_sum fun _ _ => Nat.zero_le _

end Text

/-- Related lists are compared in total where related items are compared. -/
theorem sum_map_le_of_related {α β : Type} {related : α → β → Prop} {items : List α}
    {others : List β} (each : List.Forall₂ related items others) {f : α → Nat} {g h : β → Nat}
    (bound : ∀ a ∈ items, ∀ b ∈ others, related a b → g b ≤ f a + h b) :
    (others.map g).sum ≤ (items.map f).sum + (others.map h).sum := by
  induction each with
  | nil => exact Nat.le_refl 0
  | @cons a b items others first _ ih =>
    have here := bound a (List.mem_cons_self ..) b (List.mem_cons_self ..) first
    have later := ih fun c inItems d inOthers =>
      bound c (List.mem_cons_of_mem _ inItems) d (List.mem_cons_of_mem _ inOthers)
    simp only [List.map_cons, List.sum_cons]
    omega

theorem sum_map_le_of_subset {α : Type} {items others : List α} (distinct : items.Nodup)
    (inside : items ⊆ others) (f : α → Nat) : (items.map f).sum ≤ (others.map f).sum := by
  obtain ⟨kept, same, sublist⟩ := List.subperm_of_subset distinct inside
  rw [← (same.map f).sum_eq]
  exact (sublist.map f).sum_le_sum fun _ _ => Nat.zero_le _

namespace Rule

theorem valueText?_of_default {r : Rule} {form : EndForm} {part : Part}
    (other : part ≠ .frequency) (same : r.draft part = Draft.default part) :
    r.valueText? form part = none := by
  cases part with
  | frequency => exact absurd rfl other
  | interval =>
    have one : r.interval = .int 1 := same
    rw [valueText?, one]
    rfl
  | count => exact if_pos same
  | ends => exact if_pos same
  | weekStart =>
    have monday : r.weekStart = .weekday .monday := same
    rw [valueText?, monday]
    rfl
  | list part =>
    have empty : r.values part = [] := Datum.tuple.inj same
    rw [valueText?, empty]
    rfl

/-- What a rule has is what the entries of its text are read as, and its text writes
no part without an entry. -/
theorem entries_of_read {limits : Limits} {text : Text} {r : Rule}
    (given : read limits text = .ok r) :
    ∃ entries, Lists (textSegments limits text) entries ∧
      (∀ entry ∈ entries, ∃ setting, readValue limits entry.1 entry.2 = .ok setting ∧
        r.draft entry.1 = setting.value) ∧
      ∀ form part written, r.valueText? form part = some written → part ∈ entries.map Prod.fst := by
  obtain ⟨_, entries, listed, named, values, defaults⟩ := read_eq_ok_iff.mp given
  refine ⟨entries, listed, fun entry member => ?_, fun form part written found => ?_⟩
  · obtain ⟨setting, read, same⟩ := values entry member
    exact ⟨setting, read, same.symm⟩
  · by_contra absent
    have other : part ≠ .frequency := fun same => absent (same ▸ named)
    rw [valueText?_of_default other (defaults part absent)] at found
    cases found

theorem length_body_le (limits : Limits) (text : Text) : (body limits text).length ≤ text.length := by
  unfold body
  dsimp only
  split
  · rw [List.length_drop]
    exact (Nat.sub_le _ _).trans (Text.length_trim_le text)
  · exact Text.length_trim_le text

/-- The length of the segment with which the canonical text writes a part, and one
more, or nothing for a part that it does not write. -/
def share (form : EndForm) (r : Rule) (part : Part) : Nat :=
  (r.valueText? form part).elim 0 fun written => (segment part written).length + 1

theorem weight_written (form : EndForm) (r : Rule) :
    Text.weight (r.segments form) = (((r.written form).map Prod.fst).map (r.share form)).sum := by
  rw [segments_eq, Text.weight, List.map_map, List.map_map]
  congr 1
  refine List.map_congr_left fun entry member => ?_
  have written := mem_written.mp (show (entry.1, entry.2) ∈ r.written form from member)
  simp only [Function.comp_apply, share, written, Option.elim_some]

/-- The canonical text is longer than the text only as far as single segments are,
when each part is written in the canonical text with `grow` more characters at
most. -/
theorem length_print_le {limits : Limits} {text : Text} {r : Rule} {form : EndForm}
    (given : read limits text = .ok r) (grow : Part → Nat)
    (each : ∀ segment ∈ textSegments limits text, ∀ entry written, Assigns segment entry →
      (∃ setting, readValue limits entry.1 entry.2 = .ok setting ∧
        r.draft entry.1 = setting.value) → r.valueText? form entry.1 = some written →
          (Rule.segment entry.1 written).length ≤ segment.length + grow entry.1) :
    (r.print form).length ≤ text.length + (Part.all.map grow).sum := by
  obtain ⟨entries, listed, values, present⟩ := entries_of_read given
  have shares : ((entries.map Prod.fst).map (r.share form)).sum ≤
      Text.weight (textSegments limits text) + ((entries.map Prod.fst).map grow).sum := by
    rw [List.map_map, List.map_map]
    refine sum_map_le_of_related listed.each fun segment inText entry inEntries assigns => ?_
    simp only [Function.comp_apply, share]
    cases found : r.valueText? form entry.1 with
    | none => exact Nat.zero_le _
    | some written =>
      have length := each segment inText entry written assigns (values entry inEntries) found
      rw [Option.elim_some]
      omega
  have written : Text.weight (r.segments form) ≤ ((entries.map Prod.fst).map (r.share form)).sum := by
    rw [weight_written]
    refine sum_map_le_of_subset (nodup_written form r) (fun part member => ?_) _
    obtain ⟨⟨_, value⟩, among, rfl⟩ := List.mem_map.mp member
    exact present form _ value (mem_written.mp among)
  have grown : ((entries.map Prod.fst).map grow).sum ≤ (Part.all.map grow).sum :=
    sum_map_le_of_subset listed.distinct (fun part _ => part.mem_all) _
  have pieces : Text.weight (textSegments limits text) ≤ text.length + 1 := by
    calc Text.weight (textSegments limits text)
        ≤ Text.weight (Text.split ';' (body limits text)) := Text.weight_filter_le _ _
      _ = (body limits text).length + 1 := by
          rw [← Text.length_join_add_one (Text.split_ne_nil _ _), Text.join_split]
      _ ≤ text.length + 1 := Nat.succ_le_succ (length_body_le limits text)
  have some : r.segments form ≠ [] := List.cons_ne_nil _ _
  have whole : (r.print form).length + 1 = Text.weight (r.segments form) :=
    Text.length_join_add_one some
  omega

/-- The most characters by which the segment of a part is longer in the canonical
text: the end gets its whole date and time, and the two letters at the end of the
week start's key may stand for a single one. -/
def growth (form : EndForm) (r : Rule) : Part → Nat
  | .ends => if r.ends = .none then 0 else endGrowth form
  | .weekStart => if r.weekStart = .weekday .monday then 0 else 1
  | _ => 0

theorem growth_of_ne {form : EndForm} {r : Rule} {part : Part} (notEnds : part ≠ .ends)
    (notStart : part ≠ .weekStart) : growth form r part = 0 := by
  cases part with
  | ends => exact absurd rfl notEnds
  | weekStart => exact absurd rfl notStart
  | _ => rfl

theorem length_segment_le {limits : Limits} {r : Rule} {form : EndForm} {text : Text}
    {entry : Part × Text} {written : Text} (assigns : Assigns text entry)
    (value : ∃ setting, readValue limits entry.1 entry.2 = .ok setting ∧
      r.draft entry.1 = setting.value) (found : r.valueText? form entry.1 = some written) :
    (segment entry.1 written).length ≤ text.length + growth form r entry.1 := by
  obtain ⟨key, rest, whole, _, known, same⟩ := assigns_iff.mp assigns
  obtain ⟨setting, read, holds⟩ := value
  have trimmed : trim entry.2 = entry.2 := by rw [← same, Text.trim_trim]
  have keyLength := (Part.length_key_le known).trans
    (Nat.add_le_add_right (Text.length_trim_le key) _)
  have valueLength := length_value_le trimmed read holds found
  have restLength := Text.length_trim_le rest
  rw [same] at restLength
  have total : text.length = key.length + (rest.length + 1) := by
    rw [whole, List.length_append, List.length_cons]
  have parts : (segment entry.1 written).length = entry.1.key.length + (written.length + 1) := by
    rw [segment, List.length_append, List.length_cons]
  have bound : (if entry.1 = .weekStart then 1 else 0) +
      (if entry.1 = .ends then endGrowth form else 0) ≤ growth form r entry.1 := by
    obtain ⟨part, token⟩ := entry
    cases part with
    | ends =>
      have some : r.ends ≠ .none := by
        intro none
        rw [valueText?, if_pos none] at found
        cases found
      rw [growth, if_neg some]
      exact Nat.le_of_eq (Nat.zero_add _)
    | weekStart =>
      have other : r.weekStart ≠ .weekday .monday := by
        intro monday
        rw [valueText?, monday] at found
        cases found
      rw [growth, if_neg other]
      exact Nat.le_refl 1
    | _ => exact Nat.zero_le _
  omega

/-- Canonical text under the limits of the text that it comes from: every list still
fits, and the canonical text is read back when it is not too long itself. It is
longer than the text by the growth of the end and of the week start at most, and not
at all when these two are written as long as in the canonical text. -/
theorem read_print_iff_of_read {limits : Limits} {text : Text} {r : Rule}
    (given : read limits text = .ok r) :
    (∀ part, (r.values part).length ≤ limits.maxListItems) ∧
    (read limits (r.print limits.endForm) =
      if (r.print limits.endForm).length ≤ limits.maxTextLength then .ok r
      else .error (.tooLong (r.print limits.endForm).length limits.maxTextLength)) ∧
    (r.print limits.endForm).length ≤
      text.length + growth limits.endForm r .ends + growth limits.endForm r .weekStart ∧
    ((∀ segment ∈ textSegments limits text, ∀ part value written, Assigns segment (part, value) →
      part = .ends ∨ part = .weekStart → r.valueText? limits.endForm part = some written →
        (Rule.segment part written).length ≤ segment.length) →
      (r.print limits.endForm).length ≤ text.length ∧
        read limits (r.print limits.endForm) = .ok r) := by
  have readable := isReadable_of_read given
  have back : read limits (r.print limits.endForm) =
      if (r.print limits.endForm).length ≤ limits.maxTextLength then .ok r
      else .error (.tooLong (r.print limits.endForm).length limits.maxTextLength) := by
    split
    · rename_i short
      exact read_print readable short
    · rename_i long
      rw [read, if_pos (Nat.lt_of_not_le long)]
  refine ⟨readable.length, back, ?_, fun full => ?_⟩
  · have bound := length_print_le given (growth limits.endForm r)
      fun segment _ entry written assigns value found => length_segment_le assigns value found
    have total : (Part.all.map (growth limits.endForm r)).sum =
        growth limits.endForm r .ends + growth limits.endForm r .weekStart := by
      simp only [Part.all, ListPart.all, growth, List.map_cons, List.map_nil, List.cons_append,
        List.nil_append, List.sum_cons, List.sum_nil, Nat.zero_add, Nat.add_zero]
    omega
  · have bound : (r.print limits.endForm).length ≤ text.length + (Part.all.map fun _ => 0).sum := by
      refine length_print_le given _ fun segment inText entry written assigns value found => ?_
      by_cases grows : entry.1 = .ends ∨ entry.1 = .weekStart
      · exact full segment inText entry.1 entry.2 written assigns grows found
      · rw [not_or] at grows
        have length := length_segment_le assigns value found
        rwa [growth_of_ne grows.1 grows.2] at length
    have total : (Part.all.map fun _ => 0).sum = 0 := rfl
    rw [total, Nat.add_zero] at bound
    obtain ⟨short, _⟩ := read_ok_iff.mp ⟨r, given⟩
    exact ⟨bound, back.trans (if_pos (bound.trans short))⟩

/-- A year alone is the shortest end that a text can give. -/
theorem read_print_of_year_end :
    let text := "FREQ=DAILY;UNTIL=2025".toList
    let r := ofSettings [.frequency .daily,
      .ends ⟨63871286400, 0, some 0, by decide, by decide⟩ (by decide)]
    read {} text = .ok r ∧ r.print .extended = "FREQ=DAILY;UNTIL=2025-01-01T00:00:00Z".toList ∧
      (r.print .extended).length = text.length + growth .extended r .ends ∧
        read {} (r.print .extended) = .ok r := by
  intro text r
  have given : read {} text = .ok r := by rfl
  have written : r.print .extended = "FREQ=DAILY;UNTIL=2025-01-01T00:00:00Z".toList := by
    decide +kernel
  have short : (r.print .extended).length ≤ ({} : Limits).maxTextLength := by
    rw [written]
    decide
  have length : (r.print .extended).length = text.length + growth .extended r .ends := by
    rw [written]
    rfl
  exact ⟨given, written, length, (read_print_iff_of_read given).2.1.trans (if_pos short)⟩

/-- Under limits that the text just meets, its canonical text is too long. -/
theorem not_read_print_of_year_end : ¬∀ (limits : Limits) (text : Text) (r : Rule),
    read limits text = .ok r → ∃ back, read limits (r.print limits.endForm) = .ok back := by
  intro accepted
  let limits : Limits := { maxTextLength := 21 }
  let r := ofSettings [.frequency .daily,
    .ends ⟨63871286400, 0, some 0, by decide, by decide⟩ (by decide)]
  have given : read limits "FREQ=DAILY;UNTIL=2025".toList = .ok r := by rfl
  have long : (r.print .extended).length > 21 := by
    have written : r.print .extended = "FREQ=DAILY;UNTIL=2025-01-01T00:00:00Z".toList := by
      decide +kernel
    rw [written]
    decide
  obtain ⟨back, made⟩ := accepted limits _ r given
  rw [read, if_pos long] at made
  cases made

end Rule

end Recurrence
