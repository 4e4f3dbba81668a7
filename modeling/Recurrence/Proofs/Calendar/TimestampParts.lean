import Recurrence.Calendar.Timestamp
import Recurrence.Proofs.Calendar.DateNumbers

namespace Recurrence.Timestamp

theorem dayNumber_bounds (t : Timestamp) : 0 < t.dayNumber ∧ t.dayNumber ≤ Date.lastNumber := by
  have bound := t.seconds_lt
  have last : Date.lastNumber = 3652059 := rfl
  unfold dayNumber
  omega

theorem date_isValid (t : Timestamp) : t.date.isValid = true :=
  Date.ofNumber_isValid t.dayNumber_bounds.1 t.dayNumber_bounds.2

theorem date_number (t : Timestamp) : t.date.number = t.dayNumber :=
  Date.number_ofNumber t.dayNumber_bounds.1

theorem clock_bounds (t : Timestamp) : t.hour ≤ 23 ∧ t.minute ≤ 59 ∧ t.second ≤ 59 := by
  unfold hour minute second secondOfDay
  omega

/-- The date and the clock together give back the seconds. -/
theorem seconds_eq (t : Timestamp) :
    t.seconds = (t.dayNumber - 1) * 86400 + (t.hour * 60 + t.minute) * 60 + t.second := by
  unfold dayNumber hour minute second secondOfDay
  omega

theorem make?_seconds (t : Timestamp) : make? (t.seconds : Int) t.micros t.offset = some t := by
  obtain ⟨seconds, micros, offset, secondsBound, microsBound⟩ := t
  have inside : (0 : Int) ≤ seconds ∧ (seconds : Int) < 315537897600 ∧ micros < 1000000 :=
    ⟨Int.natCast_nonneg _, by omega, microsBound⟩
  simp only [make?, inside, and_self, dif_pos, Int.toNat_natCast]

/-- A timestamp is found again from its date and its second of the day. -/
theorem ofParts?_date (t : Timestamp) : ofParts? t.date t.secondOfDay t.micros t.offset = some t := by
  have inDay : t.secondOfDay < 86400 := Nat.mod_lt _ (by decide)
  have whole : (t.date.number - 1) * 86400 + t.secondOfDay = t.seconds := by
    rw [t.date_number]
    unfold dayNumber secondOfDay
    omega
  rw [ofParts?, if_pos ⟨t.date_isValid, inDay⟩, whole, make?_seconds]

theorem make?_isSome_iff {seconds : Int} {micros : Nat} {offset : Option Int} :
    (∃ t, make? seconds micros offset = some t) ↔
      0 ≤ seconds ∧ seconds < 315537897600 ∧ micros < 1000000 := by
  unfold make?
  split
  · rename_i inside
    exact iff_of_true ⟨_, rfl⟩ inside
  · rename_i outside
    refine iff_of_false ?_ outside
    rintro ⟨_, found⟩
    cases found

theorem toUtc?_of_utc {t : Timestamp} (utc : t.offset = some 0) : t.toUtc? = some t := by
  have made := t.make?_seconds
  rw [utc] at made
  rwa [toUtc?, utc, Option.getD_some, Int.sub_zero]

theorem toUtc?_of_isNormal {t : Timestamp} (normal : t.isNormal = true) : t.toUtc? = some t := by
  simp only [isNormal, Bool.and_eq_true, beq_iff_eq] at normal
  exact toUtc?_of_utc normal.1

/-- Whether the moment lies within the years on the clock that shows UTC. -/
def IsWithinYears (t : Timestamp) : Prop := 0 ≤ t.instant ∧ t.instant < (horizon : Int) * 1000000

instance (t : Timestamp) : Decidable t.IsWithinYears := inferInstanceAs (Decidable (_ ∧ _))

theorem exists_toUtc?_iff {t : Timestamp} : (∃ utc, t.toUtc? = some utc) ↔ t.IsWithinYears := by
  have short := t.micros_lt
  have last : horizon = 315537897600 := rfl
  unfold toUtc? IsWithinYears instant
  rw [make?_isSome_iff, last]
  omega

/-- A moment can be brought into the form of rules when UTC is within the years. -/
theorem exists_normalize?_iff {t : Timestamp} : (∃ u, t.normalize? = some u) ↔ t.IsWithinYears := by
  rw [← exists_toUtc?_iff]
  constructor
  · rintro ⟨_, found⟩
    obtain ⟨u, inUtc, _⟩ := Option.map_eq_some_iff.mp found
    exact ⟨u, inUtc⟩
  · rintro ⟨u, inUtc⟩
    exact ⟨u.cutMillis, Option.map_eq_some_iff.mpr ⟨u, inUtc, rfl⟩⟩

end Recurrence.Timestamp
