import Recurrence.Proofs.Series.Calendar
import Recurrence.Proofs.Series.Stride
import Recurrence.Proofs.Series.Weeks

namespace Recurrence

theorem Frequency.ne_of_isWithinDay {f other : Frequency} (within : f.isWithinDay = true)
    (longer : other.isWithinDay = false) : f ≠ other := by
  rintro rfl
  rw [within] at longer
  cases longer

end Recurrence

namespace Recurrence.Series

/-- Whether periods within the day ever come to a time that is wanted. Longer
periods take any time. -/
def MeetsClock (s : Series) : Prop :=
  s.frequency.isWithinDay = true → ∃ steps, s.admitsPeriod (s.firstPeriod + steps * s.interval) = true

theorem reaches_within {s : Series} (within : s.frequency.isWithinDay = true) {period : Nat}
    (reached : s.Reaches period) : ∃ steps, period = s.firstPeriod + steps * s.interval := by
  refine steps_of_reaches (fun passedOver period next way => ?_) reached
  obtain ⟨steps, same, _⟩ := admits_of_nextPeriod within way
  exact ⟨steps, same⟩

/-- Within the day the search is complete when the clock ever shows what is wanted. -/
theorem complete_iff_of_within {s : Series} (sound : s.IsSound)
    (within : s.frequency.isWithinDay = true) :
    (s.search s.dayTimes s.firstPeriod).ending = none ↔
      ∃ steps, s.admitsPeriod (s.firstPeriod + steps * s.interval) = true := by
  have notYearly := @Frequency.ne_of_isWithinDay _ .yearly within rfl
  have notMonthly := @Frequency.ne_of_isWithinDay _ .monthly within rfl
  have notWeekly := @Frequency.ne_of_isWithinDay _ .weekly within rfl
  rw [ending_search_iff]
  constructor
  · intro runs
    obtain ⟨_, _, _, next, way⟩ := runs _ .first s.firstPeriod_inside
    obtain ⟨steps, same, admitted⟩ := admits_of_nextPeriod within way
    rw [same] at admitted
    exact ⟨steps, admitted⟩
  · rintro ⟨there, admitted⟩ period reached inside
    refine runs_of_known notWeekly reached inside
      (yearTable_ok sound notYearly notMonthly (firstDay_pos reached)) ?_
    intro passedOver
    obtain ⟨here, rfl⟩ := reaches_within within reached
    exact nextPeriod_ok within here passedOver admitted

/-- The search through all periods is complete except in these cases. -/
theorem complete_iff {s : Series} (sound : s.IsSound) :
    (s.search s.dayTimes s.firstPeriod).ending = none ↔
      s.MeetsClock ∧ ¬s.AsksYearZero ∧ ¬s.OverrunsYear ∧ ¬s.OverrunsCalendar := by
  have other (f : Frequency) (not : s.frequency ≠ f) {p : Prop} : ¬(s.frequency = f ∧ p) :=
    fun both => not both.1
  by_cases within : s.frequency.isWithinDay = true
  · rw [complete_iff_of_within sound within]
    have notYearly := @Frequency.ne_of_isWithinDay _ .yearly within rfl
    have notWeekly := @Frequency.ne_of_isWithinDay _ .weekly within rfl
    exact ⟨fun meets => ⟨fun _ => meets, other _ notYearly, other _ notYearly, other _ notWeekly⟩,
      fun all => all.1 within⟩
  · have meets : s.MeetsClock := fun short => absurd short within
    cases kind : s.frequency with
    | yearly =>
      have notWeekly : s.frequency ≠ .weekly := by
        rw [kind]
        decide
      rw [complete_iff_of_yearly sound kind]
      exact ⟨fun all => ⟨meets, all.1, all.2, other _ notWeekly⟩, fun all => ⟨all.2.1, all.2.2.1⟩⟩
    | weekly =>
      have notYearly : s.frequency ≠ .yearly := by
        rw [kind]
        decide
      rw [complete_iff_of_weekly sound kind]
      exact ⟨fun all => ⟨meets, other _ notYearly, other _ notYearly, all⟩, fun all => all.2.2.2⟩
    | monthly =>
      have complete := complete_of_monthly sound kind
      exact iff_of_true complete ⟨meets, other _ (by rw [kind]; decide), other _ (by rw [kind]; decide),
        other _ (by rw [kind]; decide)⟩
    | daily =>
      have complete := complete_of_daily sound kind
      exact iff_of_true complete ⟨meets, other _ (by rw [kind]; decide), other _ (by rw [kind]; decide),
        other _ (by rw [kind]; decide)⟩
    | _ =>
      rw [kind] at within
      exact absurd rfl within

theorem items_moments_nil (s : Series) (days : List Nat) : (s.moments [] days).items = [] := by
  induction days with
  | nil => rfl
  | cons day days ih =>
    rw [moments, momentsOfDay]
    exact ih

theorem ending_moments_nil (s : Series) (days : List Nat) : (s.moments [] days).ending = none := by
  rw [ending_moments]
  exact fun _ _ _ member => nomatch member

/-- Where no period is ever admitted, the search fails before it finds anything. -/
theorem items_search_of_lost {s : Series} (sound : s.IsSound)
    (within : s.frequency.isWithinDay = true)
    (lost : ∀ steps, s.admitsPeriod (s.firstPeriod + steps * s.interval) = false) :
    (s.search s.dayTimes s.firstPeriod).items = [] := by
  have notYearly := @Frequency.ne_of_isWithinDay _ .yearly within rfl
  have notMonthly := @Frequency.ne_of_isWithinDay _ .monthly within rfl
  have times : s.times s.dayTimes s.firstPeriod = [] := by
    have refused := lost 0
    rw [Nat.zero_mul, Nat.add_zero] at refused
    unfold Series.times
    rw [within, refused]
    rfl
  obtain ⟨table, known⟩ := yearTable_ok sound notYearly notMonthly (firstDay_pos .first)
  have noCandidates : s.candidates [] (s.kept table s.firstPeriod) =
      s.moments [] (s.kept table s.firstPeriod) := by
    unfold candidates
    rw [List.isEmpty_nil, Bool.or_true, if_pos rfl]
  rw [search_inside s.firstPeriod_inside known, times, noCandidates,
    Run.items_append _ _ (ending_moments_nil ..), items_moments_nil, List.nil_append]
  split
  · rfl
  · rename_i next way
    obtain ⟨steps, same, admitted⟩ := admits_of_nextPeriod within way
    rw [same, lost steps] at admitted
    cases admitted

end Recurrence.Series
