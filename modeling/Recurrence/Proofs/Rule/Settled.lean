import Recurrence.Proofs.Rule.Readable
import Recurrence.Proofs.Schedule.Soundness

namespace Recurrence.Rule

/-- The rule with frequency, start of the week and weekdays as its schedule has
them. -/
def settledAs (r : Rule) (schedule : Schedule) : Rule :=
  { r with
    frequency := .frequency schedule.frequency
    weekStart := .weekday schedule.weekStart
    weekdays := schedule.weekdays.map DayChoice.toDatum }

/-- A rule that settles to a sound schedule, with a count and lists as long as a
text can give them. -/
structure FitsText (limits : Limits) (r : Rule) (schedule : Schedule) : Prop where
  settles : r.Settles schedule
  sound : ∃ start, schedule.IsSound start
  count : ∀ n : Int, r.count = .int n → n < 2 ^ 32
  few : ∀ part, (r.values part).length ≤ limits.maxListItems

theorem readChoices_toDatum_map {choices : List DayChoice}
    (integers : ∀ ordinal day, .nth ordinal day ∈ choices → ∃ n, ordinal = .int n) :
    readChoices (choices.map DayChoice.toDatum) = .ok (choices.map DayChoice.toDatum) := by
  rw [readChoices_eq, Outcome.mapM_eq_ok_iff, List.forall₂_same, List.forall_mem_map]
  intro choice member
  cases choice with
  | every day => rfl
  | nth ordinal day =>
    obtain ⟨n, rfl⟩ := integers ordinal day member
    rfl

section

variable {r : Rule} {schedule : Schedule} {limits : Limits}

/-- The settled rule has the same schedule. -/
theorem Settles.settledAs (settles : r.Settles schedule) :
    (r.settledAs schedule).Settles schedule where
  frequency := rfl
  sameInterval := settles.sameInterval
  interval := settles.interval
  sameCount := settles.sameCount
  count := settles.count
  ends := settles.ends
  weekStart := rfl
  weekdays := readChoices_toDatum_map fun _ _ member => settles.ordinal member
  sameValues part numeric := by
    have same := settles.sameValues part numeric
    cases part with
    | weekday => exact absurd rfl numeric
    | _ => exact same
  inRange part := by
    have checked := settles.inRange part
    cases part with
    | weekday => rfl
    | _ => exact checked

theorem Settles.values_settledAs (settles : r.Settles schedule) (part : ListPart) :
    (r.settledAs schedule).values part = schedule.values part := by
  by_cases numeric : part = .weekday
  · rw [numeric]
    rfl
  · exact (settles.settledAs.sameValues part numeric).symm

/-- The choices of a sound schedule are such as a text can give. -/
theorem holds_of_isSound {start : Timestamp} (sound : schedule.IsSound start) :
    ∀ choice ∈ schedule.weekdays.map DayChoice.toDatum, ListPart.weekday.Holds choice := by
  intro choice member
  obtain ⟨settled, among, rfl⟩ := List.mem_map.mp member
  cases settled with
  | every day => exact .inl ⟨day, rfl⟩
  | nth ordinal day =>
    obtain ⟨n, limit, rfl, known, nonzero, low, high⟩ := sound.ordinals ordinal day among
    have small : limit ≤ 53 := by
      unfold Schedule.ordinalLimit? at known
      split at known
      · cases known
        decide
      · split at known <;> cases known
        exact le_rfl
      · cases known
    have digits : 10 ^ mostOrdinalDigits = 1000 := rfl
    exact .inr ⟨n, day, rfl, nonzero, by omega⟩

theorem FitsText.holds (fits : r.FitsText limits schedule) :
    ∀ choice ∈ schedule.weekdays.map DayChoice.toDatum, ListPart.weekday.Holds choice := by
  obtain ⟨_, sound⟩ := fits.sound
  exact holds_of_isSound sound

/-- A rule that fits a text is readable once it is settled. -/
theorem FitsText.isReadable (fits : r.FitsText limits schedule) :
    (r.settledAs schedule).IsReadable limits where
  frequency := ⟨_, rfl⟩
  interval := by
    obtain ⟨n, interval, positive, bound⟩ := fits.settles.interval
    have limit : Schedule.maxInterval = maxInterval := rfl
    refine ⟨n.toNat, ?_, by omega, by omega⟩
    rw [Int.toNat_of_nonneg (by omega)]
    exact interval
  count := by
    rcases fits.settles.count with missing | ⟨n, isInt, natural⟩
    · exact .inl missing
    · have bound := fits.count n isInt
      have limit : maxCount = 4294967295 := rfl
      refine .inr ⟨n.toNat, ?_, by omega⟩
      rw [Int.toNat_of_nonneg natural]
      exact isInt
  ends := by
    have same : (r.settledAs schedule).ends = _ := fits.settles.ends
    rw [same]
    cases schedule.ends with
    | none => exact .inl rfl
    | some t => exact .inr ⟨t, rfl⟩
  weekStart := ⟨_, rfl⟩
  length part := by
    by_cases numeric : part = .weekday
    · rw [fits.settles.values_settledAs, numeric]
      have read := fits.settles.weekdays
      rw [readChoices_eq] at read
      exact Outcome.length_mapM read ▸ fits.few .weekday
    · rw [fits.settles.values_settledAs, fits.settles.sameValues part numeric]
      exact fits.few part
  items part d member := by
    rw [fits.settles.values_settledAs] at member
    have holds (low high : Int) (zeroAllowed : Bool)
        (range : part.range? = some (low, high, zeroAllowed)) :
        ∃ n : Int, d = .int n ∧ low ≤ n ∧ n ≤ high := by
      obtain ⟨n, isInt, above, below, _⟩ := fits.settles.numbers part low high zeroAllowed range d member
      exact ⟨n, isInt, above, below⟩
    cases part with
    | weekday => exact fits.holds d member
    | _ =>
      obtain ⟨n, isInt, above, below⟩ := holds _ _ _ rfl
      simp only [ListPart.Holds, ListPart.storage]
      exact ⟨n, isInt, by omega, by omega⟩

end

end Recurrence.Rule
