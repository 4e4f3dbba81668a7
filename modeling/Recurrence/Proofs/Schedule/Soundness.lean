import Recurrence.Proofs.Rule.Settling

namespace Recurrence

/-- What is known of the schedule of a rule that is valid from a start on: its
numbers are integers of their ranges, and its parts may be used together. -/
structure Schedule.IsSound (s : Schedule) (start : Timestamp) : Prop where
  interval : ∃ n : Nat, s.interval = .int n ∧ 1 ≤ n ∧ (n : Int) ≤ maxInterval
  count : s.count = .none ∨ ∃ n : Nat, s.count = .int n
  numbers : ∀ part low high zeroAllowed, part.range? = some (low, high, zeroAllowed) →
    ∀ d ∈ s.values part, ∃ n : Int, d = .int n ∧ low ≤ n ∧ n ≤ high ∧ (n ≠ 0 ∨ zeroAllowed = true)
  weekNumbers : s.weekNumbers ≠ [] → s.frequency = .yearly
  yearDays : s.yearDays ≠ [] → s.frequency ∉ [.daily, .weekly, .monthly]
  monthDays : s.monthDays ≠ [] → s.frequency ≠ .weekly
  ordinals : ∀ ordinal day, .nth ordinal day ∈ s.weekdays → ∃ (n : Int) (limit : Nat),
    ordinal = .int n ∧ s.ordinalLimit? = some limit ∧ n ≠ 0 ∧ -(limit : Int) ≤ n ∧ n ≤ limit
  setPositions : s.setPositions ≠ [] → s.hasListPart = true
  ends : ∀ t, s.ends = some t → s.count = .none ∧ start.instant ≤ t.instant

namespace Schedule

theorem checkChoice_nth {s : Schedule} {n : Int} {day : Weekday}
    (checked : s.checkChoice (.nth (.int n) day) = .ok ()) :
    ∃ limit : Nat, s.ordinalLimit? = some limit ∧ n ≠ 0 ∧ -(limit : Int) ≤ n ∧ n ≤ limit := by
  have above (bound : Int) : (Datum.int n).compareInt? bound = some (some (compare n bound)) := rfl
  unfold checkChoice at checked
  dsimp only at checked
  split at checked
  · cases checked
  · rename_i limit known
    split at checked
    · cases checked
    · rename_i ordinal
      rw [above, above] at checked
      dsimp only at checked
      split at checked
      · cases checked
      · rename_i inside
        simp only [isZero, above, beq_iff_eq, Option.some.injEq, Int.compare_eq_eq] at ordinal
        simp only [Option.some.injEq, Int.compare_eq_gt, Int.compare_eq_lt, not_or] at inside
        exact ⟨limit, known, ordinal, by omega, by omega⟩

theorem checkFrequencyParts_ok {s : Schedule} (checked : s.checkFrequencyParts = .ok ()) :
    (s.weekNumbers ≠ [] → s.frequency = .yearly) ∧
    (s.yearDays ≠ [] → s.frequency ∉ [.daily, .weekly, .monthly]) ∧
    (s.monthDays ≠ [] → s.frequency ≠ .weekly) ∧
    ∀ choice ∈ s.weekdays, s.checkChoice choice = .ok () := by
  unfold checkFrequencyParts at checked
  dsimp only at checked
  split at checked
  · cases checked
  · rename_i weekNumbers
    split at checked
    · cases checked
    · rename_i yearDays
      split at checked
      · cases checked
      · rename_i monthDays
        simp only [Bool.and_eq_true, Bool.not_eq_true', List.isEmpty_eq_false_iff, not_and,
          bne_iff_ne, beq_iff_eq, not_not, List.contains_iff_mem] at weekNumbers yearDays monthDays
        exact ⟨weekNumbers, yearDays, monthDays, Outcome.forM_eq_ok.mp checked⟩

theorem check_ok {s : Schedule} {start : Timestamp} (checked : s.check start = .ok ()) :
    s.checkFrequencyParts = .ok () ∧ (s.setPositions ≠ [] → s.hasListPart = true) ∧
      (∀ t, s.ends = some t → s.count = .none ∧ start.instant ≤ t.instant) := by
  unfold check at checked
  obtain ⟨_, checked⟩ := Outcome.then_eq_ok.mp checked
  obtain ⟨parts, checked⟩ := Outcome.then_eq_ok.mp checked
  dsimp only at checked
  split at checked
  · cases checked
  · rename_i positions
    simp only [Bool.and_eq_true, Bool.not_eq_true', List.isEmpty_eq_false_iff, not_and,
      Bool.not_eq_false] at positions
    refine ⟨parts, positions, fun t known => ?_⟩
    rw [known] at checked
    dsimp only at checked
    split at checked
    · cases checked
    · rename_i count
      split at checked
      · cases checked
      · rename_i early
        exact ⟨by simpa using count, Int.not_lt.mp early⟩

end Schedule

namespace Rule

/-- The numbers of a list part that passes its check are integers of its range. -/
theorem Settles.numbers {r : Rule} {schedule : Schedule} (settles : r.Settles schedule)
    (part : ListPart) (low high : Int) (zeroAllowed : Bool)
    (range : part.range? = some (low, high, zeroAllowed)) :
    ∀ d ∈ schedule.values part, ∃ n : Int, d = .int n ∧ low ≤ n ∧ n ≤ high ∧
      (n ≠ 0 ∨ zeroAllowed = true) := by
  have numeric : part ≠ .weekday := by
    rintro rfl
    cases range
  rw [settles.sameValues part numeric]
  exact (checkPart_ok_iff range).mp (settles.inRange part)

theorem Settles.ordinal {r : Rule} {schedule : Schedule} (settles : r.Settles schedule)
    {ordinal : Datum} {day : Weekday} (member : .nth ordinal day ∈ schedule.weekdays) :
    ∃ n : Int, ordinal = .int n := by
  obtain ⟨settled, same, ordinals⟩ := readChoices_toDatum settles.weekdays
  have injective (first second : DayChoice) (same : first.toDatum = second.toDatum) :
      first = second := by
    have inverse := DayChoice.ofDatum?_toDatum first
    rw [same, DayChoice.ofDatum?_toDatum] at inverse
    exact (Option.some.inj inverse).symm
  rw [(List.map_inj_right injective).mp same] at member
  exact ordinals ordinal day member

/-- The schedule of a valid rule is sound. -/
theorem Settles.isSound {r : Rule} {schedule : Schedule} {start : Timestamp}
    (settles : r.Settles schedule) (checked : schedule.check start = .ok ()) :
    schedule.IsSound start := by
  obtain ⟨parts, setPositions, ends⟩ := Schedule.check_ok checked
  obtain ⟨weekNumbers, yearDays, monthDays, choices⟩ := Schedule.checkFrequencyParts_ok parts
  refine ⟨?_, ?_, settles.numbers, weekNumbers, yearDays, monthDays, ?_, setPositions, ends⟩
  · obtain ⟨n, interval, positive, bound⟩ := settles.interval
    refine ⟨n.toNat, ?_, by omega, by omega⟩
    rw [settles.sameInterval, interval, Int.toNat_of_nonneg (by omega)]
  · rw [settles.sameCount]
    rcases settles.count with missing | ⟨n, isInt, natural⟩
    · exact .inl missing
    · exact .inr ⟨n.toNat, by rw [isInt, Int.toNat_of_nonneg natural]⟩
  · intro ordinal day member
    obtain ⟨n, rfl⟩ := settles.ordinal member
    obtain ⟨limit, known, some, low, high⟩ := Schedule.checkChoice_nth (choices _ member)
    exact ⟨n, limit, rfl, known, some, low, high⟩

end Rule

end Recurrence
