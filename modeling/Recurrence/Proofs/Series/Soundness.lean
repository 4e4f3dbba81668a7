import Recurrence.Proofs.Series.Binding

namespace Recurrence.Series

/-- What is known of the series that a sound schedule is bound to. -/
structure IsSound (s : Series) : Prop where
  months : ∀ month ∈ s.months, 1 ≤ month ∧ month ≤ 12
  weekNumbers : s.weekNumbers ≠ [] → s.frequency = .yearly ∧ s.ordinals = []
  ordinals : ∀ entry ∈ s.ordinals, entry.1 ≠ 0 ∧
    (s.frequency = .monthly ∧ -5 ≤ entry.1 ∧ entry.1 ≤ 5 ∨
      s.frequency = .yearly ∧ -53 ≤ entry.1 ∧ entry.1 ≤ 53)

theorem toMonth?_bounds {d : Datum} {month : Nat} (found : d.toMonth? = some month) :
    1 ≤ month ∧ month ≤ 12 := by
  have member := List.mem_of_find?_eq_some found
  rw [List.mem_range'_1] at member
  omega

theorem months_fillDays {schedule : Schedule} {s : Series} {month : Nat}
    (member : month ∈ (fillDays schedule s).months) : month ∈ s.months ∨ month = s.start.date.month := by
  unfold fillDays at member
  split at member
  · split at member
    · dsimp only at member
      split at member
      · exact .inr (List.mem_singleton.mp member)
      · exact .inl member
    all_goals exact .inl member
  · exact .inl member

theorem months_bound {schedule : Schedule} {start : Timestamp}
    {clock : Option (List Int) × Option (List Int) × Option (List Int)} {month : Nat}
    (member : month ∈ (bound schedule start clock).months) : 1 ≤ month ∧ month ≤ 12 := by
  rcases months_fillDays member with given | filled
  · obtain ⟨d, _, found⟩ := List.mem_filterMap.mp given
    exact toMonth?_bounds found
  · obtain ⟨_, _, low, high, _⟩ := Date.isValid_iff.mp (Timestamp.date_isValid start)
    rw [filled]
    exact ⟨low, high⟩

theorem mem_nth? {choices : List DayChoice} {entry : Int × Weekday}
    (member : entry ∈ choices.filterMap DayChoice.nth?) :
    .nth (.int entry.1) entry.2 ∈ choices := by
  obtain ⟨choice, among, placed⟩ := List.mem_filterMap.mp member
  cases choice with
  | every day => cases placed
  | nth ordinal day =>
    cases ordinal with
    | int n =>
      cases placed
      exact among
    | _ => cases placed

/-- A sound schedule is bound to a sound series. -/
theorem bound_isSound {schedule : Schedule} {moment : Timestamp} (sound : schedule.IsSound moment)
    (start : Timestamp) (clock : Option (List Int) × Option (List Int) × Option (List Int)) :
    (bound schedule start clock).IsSound := by
  have ordinal (entry : Int × Weekday)
      (member : entry ∈ schedule.weekdays.filterMap DayChoice.nth?) :
      ∃ limit : Nat, schedule.ordinalLimit? = some limit ∧ entry.1 ≠ 0 ∧
        -(limit : Int) ≤ entry.1 ∧ entry.1 ≤ limit := by
    obtain ⟨n, limit, same, rest⟩ := sound.ordinals _ _ (mem_nth? member)
    cases same
    exact ⟨limit, rest⟩
  refine ⟨fun _ member => months_bound member, fun numbered => ?_, fun entry member => ?_⟩
  · rw [bound_weekNumbers] at numbered
    have given : schedule.weekNumbers ≠ [] := by
      intro nothing
      rw [nothing] at numbered
      exact numbered rfl
    have yearly := sound.weekNumbers given
    rw [bound_frequency, bound_ordinals]
    refine ⟨yearly, ?_⟩
    rw [List.eq_nil_iff_forall_not_mem]
    intro entry member
    obtain ⟨limit, limited, _⟩ := ordinal entry member
    simp only [Schedule.ordinalLimit?, yearly, List.isEmpty_iff, given, if_false] at limited
    cases limited
  · rw [bound_ordinals] at member
    obtain ⟨limit, limited, nonzero, low, high⟩ := ordinal entry member
    rw [bound_frequency]
    refine ⟨nonzero, ?_⟩
    unfold Schedule.ordinalLimit? at limited
    split at limited
    · rename_i monthly
      cases limited
      exact .inl ⟨monthly, low, high⟩
    · rename_i yearly
      split at limited
      · cases limited
        exact .inr ⟨yearly, low, high⟩
      · cases limited
    · cases limited

end Recurrence.Series
