import Recurrence.Proofs.Schedule.Instants
import Recurrence.Proofs.Series.BareInstants

namespace Recurrence

namespace Schedule

/-- Whether a schedule of weeks or shorter periods leaves everything to its start. -/
def IsBare (s : Schedule) : Prop :=
  s.hasListPart = false ∧ s.frequency ≠ .yearly ∧ s.frequency ≠ .monthly

variable {schedule : Schedule} {moment t utc : Timestamp} {offset : Int}

theorem readClock_open (empty : schedule.hasListPart = false) (start : Timestamp) :
    Series.readClock schedule (Series.intervalOf schedule) start = .ok (none, none, none) := by
  simp only [hasListPart, Bool.or_eq_false_iff, Bool.not_eq_false', List.isEmpty_iff] at empty
  obtain ⟨⟨⟨_, hours⟩, minutes⟩, seconds⟩ := empty
  unfold Series.readClock
  rw [hours, minutes, seconds]
  rfl

/-- A bare schedule is bound to a bare series. -/
theorem bound_isBare (sound : schedule.IsSound moment) (bare : schedule.IsBare) (start : Timestamp) :
    (Series.bound schedule start (none, none, none)).IsBare := by
  obtain ⟨empty, notYearly, notMonthly⟩ := bare
  have positions : schedule.setPositions = [] := by
    by_contra present
    rw [sound.setPositions present] at empty
    cases empty
  simp only [hasListPart, Bool.or_eq_false_iff, Bool.not_eq_false', List.isEmpty_iff] at empty
  obtain ⟨⟨⟨⟨⟨⟨⟨months, monthDays⟩, yearDays⟩, weekNumbers⟩, weekdays⟩, _⟩, _⟩, _⟩ := empty
  have opens : Series.leavesDaysOpen schedule = true := by
    unfold Series.leavesDaysOpen
    rw [weekNumbers, yearDays, monthDays, weekdays]
    rfl
  unfold Series.bound Series.fillDays
  rw [opens, if_pos rfl, positions, months, monthDays, yearDays, weekNumbers, weekdays]
  dsimp only
  cases kind : schedule.frequency with
  | yearly => exact absurd kind notYearly
  | monthly => exact absurd kind notMonthly
  | _ => constructor <;> first | rfl | exact fun same => nomatch same

theorem ofSchedule_open (sound : schedule.IsSound moment) (empty : schedule.hasListPart = false)
    (start : Timestamp) :
    Series.ofSchedule schedule start = .ok (Series.bound schedule start (none, none, none)) := by
  rw [Series.ofSchedule_eq sound, readClock_open empty]
  rfl

theorem instantAfter_toUtc (schedule : Schedule) (inside : t.toUtc? = some utc) :
    (Series.bound schedule utc (none, none, none)).instantAfter =
      (Series.bound schedule t (none, none, none)).instantAfter := by
  have begins := Timestamp.begins_of_toUtc? inside
  have whole (start : Timestamp) : start.aware.cutSeconds.micros = 0 := rfl
  funext steps
  unfold Series.instantAfter Series.after Series.step
  rw [Series.bound_interval, Series.bound_interval, Series.bound_frequency, Series.bound_frequency,
    Series.bound_start, Series.bound_start]
  unfold Timestamp.instant at begins
  rw [whole, whole] at begins
  generalize steps * _ = onward
  omega

/-- A bare schedule is bound to parallel series on the clock of a start and in UTC. -/
theorem parallel_toUtc (sound : schedule.IsSound moment) (bare : schedule.IsBare)
    (inside : t.toUtc? = some utc) :
    (Series.bound schedule t (none, none, none)).Parallel
      (Series.bound schedule utc (none, none, none)) where
  bare := bound_isBare sound bare t
  otherBare := bound_isBare sound bare utc
  whole := by
    rw [Series.bound_start]
    rfl
  otherWhole := by
    rw [Series.bound_start]
    rfl
  instants := instantAfter_toUtc schedule inside
  begins := by rw [Series.bound_start, Series.bound_start, Timestamp.begins_of_toUtc? inside]
  ends := by rw [Series.bound_ends, Series.bound_ends]
  count := by rw [Series.bound_count, Series.bound_count]

/-- The clock of a start and that of UTC take a bare schedule through the same
instants, as far as both of them show these. -/
theorem instants_of_bare (sound : schedule.IsSound moment) (bare : schedule.IsBare)
    (known : t.offset = some offset) (inside : t.toUtc? = some utc) :
    ∃ here there, schedule.instants t = .ok here ∧ schedule.instants utc = .ok there ∧
      AgreeWhile (fun i => Timestamp.Shows offset i ∧ Timestamp.Shows 0 i) here.items there.items := by
  obtain ⟨_, _, utcKnown⟩ := Timestamp.parts_of_toUtc? inside
  have agree := (parallel_toUtc sound bare inside).agree
  have here : (Series.bound schedule t (none, none, none)).start.offset.getD 0 = offset := by
    rw [Series.bound_start]
    exact congrArg (Option.getD · 0) known
  have there : (Series.bound schedule utc (none, none, none)).start.offset.getD 0 = 0 := by
    rw [Series.bound_start]
    exact congrArg (Option.getD · 0) utcKnown
  rw [here, there] at agree
  exact ⟨_, _, congrArg (Except.map _) (ofSchedule_open sound bare.1 t),
    congrArg (Except.map _) (ofSchedule_open sound bare.1 utc), agree⟩

/-- A bare schedule whose end or count comes before the years end on both clocks goes
through the same instants on them. -/
theorem instants_of_bare_closed (sound : schedule.IsSound moment) (bare : schedule.IsBare)
    (inside : t.toUtc? = some utc)
    (closed : ∀ start ∈ [t, utc], ∀ series, Series.ofSchedule schedule start = .ok series →
      ¬series.StaysOpen) :
    schedule.instants t = schedule.instants utc := by
  have bound (start : Timestamp) := ofSchedule_open sound bare.1 start
  have here := closed t (by simp) _ (bound t)
  have there := closed utc (by simp) _ (bound utc)
  unfold instants
  rw [bound t, bound utc]
  exact congrArg Except.ok ((parallel_toUtc sound bare inside).same here there)

end Schedule

end Recurrence
