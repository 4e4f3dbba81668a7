import Mathlib.Data.List.Perm.Basic
import Recurrence.Proofs.Rule.Refusal
import Recurrence.Proofs.Rule.ValueLength

namespace Recurrence.Rule

/-- Of settings for different parts each one stays. -/
theorem draft_ofSettings_of_mem {settings : List Setting}
    (distinct : (settings.map Setting.part).Nodup) {setting : Setting} (member : setting ∈ settings) :
    (ofSettings settings).draft setting.part = setting.value := by
  rw [draft_ofSettings]
  refine Draft.setAll_of_mem ?_ (List.mem_map_of_mem member)
  rwa [List.map_map]

theorem draft_ofSettings_of_absent {settings : List Setting} {part : Part}
    (absent : part ∉ settings.map Setting.part) :
    (ofSettings settings).draft part = Draft.default part := by
  rw [draft_ofSettings]
  refine Draft.setAll_of_absent (List.forall_mem_map.mpr fun setting member same => ?_)
  exact absent (List.mem_map.mpr ⟨setting, member, same⟩)

/-- Whether segments give a rule by the entries that they list: what the entries are read as is
what the rule has in their parts, and the other parts of it hold their default. -/
structure Gives (limits : Limits) (segments : List Text) (entries : List (Part × Text))
    (r : Rule) : Prop where
  listed : Lists segments entries
  named : .frequency ∈ entries.map Prod.fst
  values : ∀ entry ∈ entries, ∃ setting, readValue limits entry.1 entry.2 = .ok setting ∧
    setting.value = r.draft entry.1
  defaults : ∀ part ∉ entries.map Prod.fst, r.draft part = Draft.default part

/-- A text is read as a rule just when its segments give the rule. -/
theorem read_eq_ok_iff {limits : Limits} {text : Text} {r : Rule} :
    read limits text = .ok r ↔ text.length ≤ limits.maxTextLength ∧
      ∃ entries, Gives limits (textSegments limits text) entries r := by
  constructor
  · intro given
    obtain ⟨short, entries, listed, named, _⟩ := isRuleText_iff.mp (read_ok_iff.mp ⟨r, given⟩)
    rw [read_eq_of_lists short listed, if_pos named] at given
    obtain ⟨settings, read, rfl⟩ := Outcome.map_eq_ok.mp given
    have each := Outcome.mapM_eq_ok_iff.mp read
    have parts : settings.map Setting.part = entries.map Prod.fst :=
      Outcome.map_eq_map_iff.mpr (each.imp fun _ _ read => part_of_readValue read).flip
    have distinct : (settings.map Setting.part).Nodup := parts ▸ listed.distinct
    refine ⟨short, entries, listed, named, fun entry member => ?_, fun part absent => ?_⟩
    · obtain ⟨setting, among, read⟩ := Outcome.exists_of_mem_left each member
      refine ⟨setting, read, ?_⟩
      rw [← part_of_readValue read]
      exact (draft_ofSettings_of_mem distinct among).symm
    · exact draft_ofSettings_of_absent (parts ▸ absent)
  · rintro ⟨short, entries, listed, named, values, defaults⟩
    obtain ⟨settings, read, parts, given⟩ := readValues_of_entries (r := r) fun entry member => by
      obtain ⟨setting, read, same⟩ := values entry member
      exact ⟨setting, read, part_of_readValue read, same⟩
    have made : ofSettings settings = r := by
      refine ofSettings_eq given fun part absent => defaults part fun member => ?_
      obtain ⟨entry, among, rfl⟩ := List.mem_map.mp member
      obtain ⟨setting, inSettings, same⟩ := parts entry among
      exact absent setting inSettings same
    rw [read_eq_of_lists short listed, if_pos named, ← readValues_eq, read, ← made]
    rfl

namespace Gives

variable {limits : Limits} {segments others : List Text} {entries : List (Part × Text)} {r : Rule}

/-- The order of the segments does not matter. -/
theorem perm (given : Gives limits segments entries r) (permuted : segments.Perm others) :
    ∃ permutedEntries, Gives limits others permutedEntries r := by
  obtain ⟨⟨each, distinct⟩, named, values, defaults⟩ := given
  obtain ⟨found, assigned, same⟩ := List.perm_comp_forall₂ permuted.symm each
  have parts := same.map Prod.fst
  exact ⟨found, ⟨assigned, parts.nodup_iff.mpr distinct⟩, parts.mem_iff.mpr named,
    fun entry member => values entry (same.mem_iff.mp member),
    fun part absent => defaults part fun member => absent (parts.mem_iff.mpr member)⟩

end Gives

end Recurrence.Rule
