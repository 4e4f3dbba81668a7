import Recurrence.Proofs.Intake.Fields
import Recurrence.Proofs.Intake.Moment
import Recurrence.Proofs.Interchange.Conversion
import Recurrence.Proofs.Rule.Drafts
import Recurrence.Proofs.Rule.Typed

namespace Recurrence

namespace Rule

variable {r : Rule} {α : Type}

/-- The export of a rule has the value of each part under the name of the part. -/
theorem lookup_entries (r : Rule) (part : Part) :
    r.entries.lookup part.name.toList = some (r.partExport part) := by
  have named (parts : List Part) (member : part ∈ parts) :
      (parts.map fun p => (p.name.toList, r.partExport p)).lookup part.name.toList =
        some (r.partExport part) := by
    induction parts with
    | nil => cases member
    | cons p parts ih =>
      rw [List.map_cons, List.lookup_cons]
      split
      · rename_i same
        rw [Part.name_injective (eq_of_beq same)]
      · rename_i other
        rcases List.mem_cons.mp member with rfl | later
        · simp at other
        · exact ih later
  exact named Part.all part.mem_all

theorem field_entries (part : Part) {read : Datum → Intake α} {x : α}
    (taken : read (r.partExport part) = .ok x) : Intake.field r.entries part.name read = .ok x :=
  Intake.field_eq_ok.mpr ⟨_, r.lookup_entries part, taken⟩

theorem fieldOr_entries (part : Part) {fallback : α} {read : Datum → Intake α} {x : α}
    (taken : read (r.partExport part) = .ok x) :
    Intake.fieldOr r.entries part.name fallback read = .ok x :=
  Intake.fieldOr_eq_ok.mpr (.inr ⟨_, r.lookup_entries part, taken⟩)

/-- The integers of a list part are taken in as they are. -/
theorem takeNumbers_entries {part : ListPart} (numeric : part ≠ .weekday) {ns : List Int}
    (integers : r.values part = ns.map .int) : Interchange.takeNumbers r.entries part = .ok ns := by
  refine fieldOr_entries (.list part) ?_
  have exported : r.partExport (.list part) = .list (ns.map .int) := by
    rw [← integers]
    cases part with
    | weekday => exact absurd rfl numeric
    | _ => rfl
  rw [exported, Intake.list_eq_ok, List.forall₂_map_left_iff, List.forall₂_same]
  exact fun _ _ => rfl

theorem onlyKnown_entries (r : Rule) :
    Intake.onlyKnown (Part.all.map fun part => part.name.toList) r.entries = .ok () := by
  refine Intake.onlyKnown_ok fun entry member => ?_
  obtain ⟨part, among, rfl⟩ := List.mem_map.mp member
  exact List.mem_map_of_mem among

end Rule

namespace DayName

/-- The name under which a weekday choice is exchanged is taken in, and means the
choice. -/
theorem exists_take_export {d : Datum} (typed : d.IsTypedChoice) :
    ∃ name, take (Rule.occurrenceExport d) = .ok name ∧ name.toDatum.toOccurrence = .ok d := by
  rcases typed with ⟨day, rfl⟩ | ⟨n, day, rfl⟩
  · refine ⟨.every day.code, ?_, ?_⟩
    · simp [Rule.occurrenceExport, take, Datum.asText?]
    · cases day <;> rfl
  · refine ⟨.nth n day.code, ?_, ?_⟩
    · simp [Rule.occurrenceExport, take, takePair, Datum.asText?, Intake.int, Intake.text,
        Intake.within, Intake.both]
    · cases day <;> rfl

/-- The weekdays of a typed rule are taken in under names that mean them. -/
theorem exists_takeAll_export {r : Rule} (typed : r.IsTyped) :
    ∃ names, takeAll (.list (r.weekdays.map Rule.occurrenceExport)) = .ok names ∧
      (names.mapM fun name => name.toDatum.toOccurrence) = .ok r.weekdays := by
  have each : ∃ names, List.Forall₂ (fun d name => take (Rule.occurrenceExport d) = .ok name ∧
      name.toDatum.toOccurrence = .ok d) r.weekdays names := by
    have typedDays := typed.weekdays
    generalize r.weekdays = days at typedDays
    induction days with
    | nil => exact ⟨[], .nil⟩
    | cons d days ih =>
      obtain ⟨first, later⟩ := List.forall_mem_cons.mp typedDays
      obtain ⟨name, both⟩ := exists_take_export first
      obtain ⟨names, rest⟩ := ih later
      exact ⟨name :: names, .cons both rest⟩
  obtain ⟨names, each⟩ := each
  have taken : Intake.list take (.list (r.weekdays.map Rule.occurrenceExport)) = .ok names := by
    rw [Intake.list_eq_ok, List.forall₂_map_left_iff]
    exact each.imp fun _ _ => And.left
  have named : (names.mapM fun name => name.toDatum.toOccurrence) = .ok r.weekdays :=
    Outcome.mapM_eq_ok_iff.mpr (each.imp fun _ _ => And.right).flip
  refine ⟨names, Intake.andThen_eq_ok.mpr ⟨names, taken, ?_⟩, named⟩
  rw [named]
  rfl

end DayName

end Recurrence
