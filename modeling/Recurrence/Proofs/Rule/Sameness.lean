import Recurrence.Proofs.Rule.Segments
import Recurrence.Proofs.Rule.Typed

namespace Recurrence

theorem Weekday.code_injective : Function.Injective Weekday.code := by
  intro day next same
  rw [← Option.some.injEq, ← Weekday.ofCode?_code day, same, Weekday.ofCode?_code]

theorem Frequency.name_injective : Function.Injective Frequency.name := by
  intro f g same
  rw [← Option.some.injEq, ← Frequency.ofName?_name f, same, Frequency.ofName?_name]

namespace Datum

theorem same_int {n m : Int} : (int n).same (int m) = true ↔ int n = int m := by
  simp [same, asNumber?, sameNumber]

theorem same_weekday {day next : Weekday} :
    (weekday day).same (weekday next) = true ↔ weekday day = weekday next := by
  simp only [same, asNumber?, asText?, beq_iff_eq, Weekday.code_injective.eq_iff, weekday.injEq]

theorem same_frequency {f g : Frequency} :
    (frequency f).same (frequency g) = true ↔ frequency f = frequency g := by
  simp only [same, asNumber?, asText?, beq_iff_eq, Frequency.name_injective.eq_iff, frequency.injEq]

theorem same_moment {t u : Timestamp} (normal : t.isNormal) (otherNormal : u.isNormal) :
    (moment t).same (moment u) = true ↔ moment t = moment u := by
  obtain ⟨seconds, micros, offset, _, below⟩ := t
  obtain ⟨second, micro, other, _, otherBelow⟩ := u
  simp only [Timestamp.isNormal, Bool.and_eq_true, beq_iff_eq] at normal otherNormal
  obtain ⟨rfl, _⟩ := normal
  obtain ⟨rfl, _⟩ := otherNormal
  simp only [same, sameMoment, Timestamp.isAware, Timestamp.instant, Option.isSome_some, Option.getD_some,
    beq_self_eq_true, Bool.true_and, beq_iff_eq, moment.injEq, Timestamp.mk.injEq, and_true]
  omega

theorem IsTypedChoice.same_iff {d e : Datum} (first : d.IsTypedChoice) (second : e.IsTypedChoice) :
    d.same e = true ↔ d = e := by
  rcases first with ⟨day, rfl⟩ | ⟨n, day, rfl⟩ <;> rcases second with ⟨next, rfl⟩ | ⟨m, next, rfl⟩
  · rw [same, same_weekday, every.injEq]
  · exact iff_of_false (by simp [same, asNumber?, asText?]) (by simp)
  · exact iff_of_false (by simp [same, asNumber?, asText?]) (by simp)
  · rw [same, Bool.and_eq_true, same_int, same_weekday, nth.injEq]

theorem sameItems_iff {items values : List Datum}
    (each : ∀ d ∈ items, ∀ e ∈ values, d.same e = true ↔ d = e) :
    sameItems items values = true ↔ items = values := by
  induction items generalizing values with
  | nil => cases values <;> simp [sameItems]
  | cons d items ih =>
    cases values with
    | nil => simp [sameItems]
    | cons e values =>
      rw [sameItems, Bool.and_eq_true, List.cons.injEq, each d (List.mem_cons_self ..) e
        (List.mem_cons_self ..), ih fun a member b among => each a (List.mem_cons_of_mem _ member) b
          (List.mem_cons_of_mem _ among)]

end Datum

theorem ListPart.Types.same_iff {part : ListPart} {d e : Datum} (first : part.Types d)
    (second : part.Types e) : d.same e = true ↔ d = e := by
  cases part with
  | weekday => exact Datum.IsTypedChoice.same_iff first second
  | _ =>
    obtain ⟨n, rfl⟩ := first
    obtain ⟨m, rfl⟩ := second
    exact Datum.same_int

namespace Rule

/-- Typed rules are equal as callers see it only when they are the same. -/
theorem IsTyped.same_iff {r s : Rule} (first : r.IsTyped) (second : s.IsTyped) : r.same s = true ↔ r = s := by
  have values (part : ListPart) :
      Datum.sameItems (r.values part) (s.values part) = true ↔ r.values part = s.values part :=
    Datum.sameItems_iff fun d member e among =>
      ListPart.Types.same_iff (first.types member) (second.types among)
  have frequency : r.frequency.same s.frequency = true ↔ r.frequency = s.frequency := by
    obtain ⟨f, known⟩ := first.frequency
    obtain ⟨g, otherKnown⟩ := second.frequency
    rw [known, otherKnown, Datum.same_frequency]
  have interval : r.interval.same s.interval = true ↔ r.interval = s.interval := by
    obtain ⟨n, known⟩ := first.interval
    obtain ⟨m, otherKnown⟩ := second.interval
    rw [known, otherKnown, Datum.same_int]
  have count : r.count.same s.count = true ↔ r.count = s.count := by
    rcases first.count with known | ⟨n, known⟩ <;> rcases second.count with otherKnown | ⟨m, otherKnown⟩
      <;> rw [known, otherKnown]
    · simp [Datum.same]
    · simp [Datum.same, Datum.asNumber?, Datum.asText?]
    · simp [Datum.same, Datum.asNumber?, Datum.asText?]
    · exact Datum.same_int
  have ends : r.ends.same s.ends = true ↔ r.ends = s.ends := by
    rcases first.ends with known | ⟨t, known⟩ <;> rcases second.ends with otherKnown | ⟨u, otherKnown⟩
    · rw [known, otherKnown]
      simp [Datum.same]
    · rw [known, otherKnown]
      simp [Datum.same, Datum.asNumber?, Datum.asText?]
    · rw [known, otherKnown]
      simp [Datum.same, Datum.asNumber?, Datum.asText?]
    · have normal := r.ends_normal t known
      have otherNormal := s.ends_normal u otherKnown
      rw [known, otherKnown, Datum.same_moment normal otherNormal]
  have weekStart : r.weekStart.same s.weekStart = true ↔ r.weekStart = s.weekStart := by
    obtain ⟨day, known⟩ := first.weekStart
    obtain ⟨next, otherKnown⟩ := second.weekStart
    rw [known, otherKnown, Datum.same_weekday]
  have all : (ListPart.all.all fun part => Datum.sameItems (r.values part) (s.values part)) = true ↔
      ∀ part, r.values part = s.values part := by
    rw [List.all_eq_true]
    refine ⟨fun each part => (values part).mp (each part (by cases part <;> decide)), fun each part _ =>
      (values part).mpr (each part)⟩
  rw [same, Bool.and_eq_true, Bool.and_eq_true, Bool.and_eq_true, Bool.and_eq_true, Bool.and_eq_true,
    frequency, interval, count, ends, weekStart, all]
  constructor
  · rintro ⟨⟨⟨⟨⟨sameFrequency, sameInterval⟩, sameCount⟩, sameEnds⟩, sameStart⟩, sameValues⟩
    refine draft_injective (funext fun part => ?_)
    cases part with
    | list part => exact congrArg Datum.tuple (sameValues part)
    | _ => assumption
  · rintro rfl
    exact ⟨⟨⟨⟨⟨rfl, rfl⟩, rfl⟩, rfl⟩, rfl⟩, fun _ => rfl⟩

end Rule

end Recurrence
