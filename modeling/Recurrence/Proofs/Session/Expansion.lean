import Recurrence.Proofs.Series.Clock
import Recurrence.Proofs.Series.Completeness
import Recurrence.Proofs.Series.Occurrences
import Recurrence.Proofs.Series.Window
import Recurrence.Proofs.Session.Resolution

namespace Recurrence

namespace Query

/-- Whether the bounds of a query are moments, as far as they are given. -/
structure IsWellTyped (query : Query) : Prop where
  after : query.after = .none ∨ ∃ t, query.after = .moment t
  before : query.before = .none ∨ ∃ t, query.before = .moment t

theorem toBound_ok {d : Datum} (typed : d = .none ∨ ∃ t, d = .moment t) :
    ∃ bound, d.toBound = .ok bound := by
  rcases typed with rfl | ⟨t, rfl⟩
  · exact ⟨none, rfl⟩
  · exact ⟨some t, rfl⟩

/-- No query fails when the occurrences of the series do not. -/
theorem ending_answer {query : Query} (typed : query.IsWellTyped) {schedule : Schedule}
    {start : Timestamp} {series : Series} (bound : Series.ofSchedule schedule start = .ok series)
    (complete : series.occurrences.ending = none) (limits : Limits) :
    (query.answer schedule start limits).ending = none := by
  obtain ⟨after, readAfter⟩ := toBound_ok typed.after
  obtain ⟨before, readBefore⟩ := toBound_ok typed.before
  unfold answer
  rw [Schedule.occurrences_of_bound bound readAfter readBefore]
  dsimp only
  split
  · rw [Run.ending_filter]
    exact Series.ending_window complete ..
  · refine Run.ending_cut_of_none ?_
    rw [Run.ending_filter]
    exact Series.ending_window complete ..

/-- The query for a number of occurrences, wherever they are. -/
def first (n : Nat) : Query := { count := some n }

/-- The query for all occurrences fails when they do. -/
theorem ending_answer_first {schedule : Schedule} {start : Timestamp} {series : Series}
    (bound : Series.ofSchedule schedule start = .ok series) (limits : Limits) :
    ((first series.occurrences.items.length).answer schedule start limits).ending =
      series.occurrences.ending := by
  unfold answer
  change (((schedule.occurrences start .none .none false).filter fun t => true || _).cut _).ending = _
  rw [Schedule.occurrences_unbounded bound, Run.ending_cut, Run.items_filter, Run.ending_filter, Int.toNat_natCast,
    if_pos (List.length_filter_le ..)]

end Query

namespace Schedule

variable {schedule : Schedule} {moment start : Timestamp}

theorem meetsClock_iff {clock : Option (List Int) × Option (List Int) × Option (List Int)}
    (sound : schedule.IsSound moment)
    (read : Series.readClock schedule (Series.intervalOf schedule) start.aware.cutSeconds =
      .ok clock) :
    (Series.bound schedule start clock).MeetsClock ↔ schedule.MeetsClock start := by
  unfold Series.MeetsClock MeetsClock
  rw [Series.bound_frequency]
  refine imp_congr_right fun within => exists_congr fun steps => ?_
  exact Series.admitsPeriod_bound sound read within steps

/-- When a schedule is bound to a start and what it is bound to gives all of its
occurrences without an error. -/
theorem complete_iff (sound : schedule.IsSound moment) (start : Timestamp) :
    (∃ series, Series.ofSchedule schedule start = .ok series ∧ series.occurrences.ending = none) ↔
      schedule.MeetsClock start ∧
        ∀ series, Series.ofSchedule schedule start = .ok series → series.StaysOpen →
          ¬series.AsksYearZero ∧ ¬series.OverrunsYear ∧ ¬series.OverrunsCalendar := by
  constructor
  · rintro ⟨series, isBound, complete⟩
    obtain ⟨clock, read, rfl⟩ := Series.exists_clock_of_ofSchedule sound isBound
    have soundSeries := Series.bound_isSound sound start clock
    rw [Series.ending_occurrences] at complete
    refine ⟨(meetsClock_iff sound read).mp fun within => ?_, fun other isOther stays => ?_⟩
    · by_contra lost
      have refused (steps : Nat) := Bool.eq_false_iff.mpr fun admitted => lost ⟨steps, admitted⟩
      have nothing : (Series.bound schedule start clock).found = [] :=
        Series.items_search_of_lost soundSeries within refused
      refine lost (((Series.complete_iff soundSeries).mp (complete ?_)).1 within)
      refine ⟨fun t member => ?_, fun n _ => ?_⟩
      · rw [nothing] at member
        cases member
      · rw [nothing]
        exact Nat.zero_le n
    · cases isBound.symm.trans isOther
      exact ((Series.complete_iff soundSeries).mp (complete stays)).2
  · rintro ⟨meets, fits⟩
    obtain ⟨clock, read⟩ : ∃ clock, Series.readClock schedule (Series.intervalOf schedule)
        start.aware.cutSeconds = .ok clock := Series.readClock_ok sound meets
    have isBound : Series.ofSchedule schedule start = .ok (Series.bound schedule start clock) := by
      rw [Series.ofSchedule_eq sound start, read]
      rfl
    refine ⟨_, isBound, (Series.ending_occurrences _).mpr fun stays => ?_⟩
    rw [Series.complete_iff (Series.bound_isSound sound start clock)]
    exact ⟨(meetsClock_iff sound read).mpr meets, fits _ isBound stays⟩

end Schedule

namespace Work

/-- Whether a rule, used from a start on, can be bound to it, and no query for its
occurrences ends with an error, whatever limits and session there are. -/
def Expands (r : Rule) (start : Datum) : Prop :=
  (∃ schedule moment series, r.toSchedule = .ok schedule ∧ readStart start = .ok moment ∧
    Series.ofSchedule schedule moment = .ok series) ∧
  ∀ given limits before after, (limitsOr given).outcome before = (.ok limits, after) →
    ∀ query : Query, query.IsWellTyped →
      ∃ run, (generate given (.rule r) start query).outcome before = (.ok run, after) ∧
        run.ending = none

/-- A valid rule can be expanded exactly when the clock, going on from the start by
whole intervals, ever shows a time that the rule asks for, and the series, unless
its end or its count is passed before, does not ask for the weeks of year zero,
for weekdays too far behind a year, or for days behind the last week. -/
theorem expands_iff {r : Rule} {start : Datum} {moment : Timestamp} {schedule : Schedule}
    (valid : r.validate start = .ok ()) (begun : readStart start = .ok moment)
    (made : r.toSchedule = .ok schedule) :
    Expands r start ↔
      schedule.MeetsClock moment ∧
        ∀ series, Series.ofSchedule schedule moment = .ok series → series.StaysOpen →
          ¬series.AsksYearZero ∧ ¬series.OverrunsYear ∧ ¬series.OverrunsCalendar := by
  obtain ⟨other, settled, read, settles, checked⟩ := Rule.validate_ok_iff.mp valid
  cases begun.symm.trans read
  cases made.symm.trans (Rule.toSchedule_ok_iff.mpr settles)
  rw [← Schedule.complete_iff (settles.isSound checked)]
  constructor
  · rintro ⟨⟨_, _, series, again, started, bound⟩, complete⟩
    cases made.symm.trans again
    cases begun.symm.trans started
    refine ⟨series, bound, ?_⟩
    obtain ⟨run, generated, ending⟩ := complete (some {}) {} {} {} rfl
      (Query.first series.occurrences.items.length) ⟨.inl rfl, .inl rfl⟩
    rw [outcome_generate begun made valid rfl] at generated
    cases generated
    rw [← Query.ending_answer_first bound {}]
    exact ending
  · rintro ⟨series, bound, complete⟩
    refine ⟨⟨schedule, moment, series, made, begun, bound⟩, ?_⟩
    intro given limits before after loaded query typed
    exact ⟨_, outcome_generate begun made valid loaded query,
      Query.ending_answer typed bound complete limits⟩

/-- Every second hour, but only at one o'clock. -/
def oddHour : Rule :=
  { Rule.bare (.frequency .hourly) with interval := .int 2, hours := [.int 1] }

/-- Midnight at the beginning of the sixth of January 2025, in UTC. -/
def midnight : Timestamp where
  seconds := 63871718400
  micros := 0
  offset := some 0
  seconds_lt := by decide
  micros_lt := Timestamp.zero_micros_lt

theorem not_expands_oddHour :
    oddHour.validate (.moment midnight) = .ok () ∧ ¬Expands oddHour (.moment midnight) := by
  have valid : oddHour.validate (.moment midnight) = .ok () := rfl
  have begun : readStart (.moment midnight) = .ok midnight := rfl
  have made : oddHour.toSchedule = .ok (oddHour.scheduleWith .hourly .monday none []) := rfl
  refine ⟨valid, fun expands => ?_⟩
  obtain ⟨steps, hour, _⟩ := ((expands_iff valid begun made).mp expands).1 rfl
  rw [Schedule.timeAfter_hourly midnight steps rfl] at hour
  have even : midnight.hour + steps * Series.intervalOf (oddHour.scheduleWith .hourly .monday none []) =
      steps * 2 := Nat.zero_add _
  rw [even] at hour
  rcases hour with empty | member
  · cases empty
  · have same := List.mem_singleton.mp member
    simp only [Datum.int.injEq] at same
    omega

end Work

end Recurrence
