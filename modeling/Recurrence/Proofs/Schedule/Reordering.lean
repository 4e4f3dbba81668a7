import Recurrence.Proofs.Schedule.Checks
import Recurrence.Proofs.Series.Alike
import Recurrence.Proofs.Series.Clock

namespace Recurrence

namespace Schedule

/-- Whether two schedules differ in nothing but the order and the repetition of the entries of
their lists. -/
structure Reorders (s t : Schedule) : Prop where
  frequency : t.frequency = s.frequency
  interval : t.interval = s.interval
  count : t.count = s.count
  ends : t.ends = s.ends
  weekStart : t.weekStart = s.weekStart
  setPositions : SameMembers s.setPositions t.setPositions
  months : SameMembers s.months t.months
  monthDays : SameMembers s.monthDays t.monthDays
  yearDays : SameMembers s.yearDays t.yearDays
  weekNumbers : SameMembers s.weekNumbers t.weekNumbers
  weekdays : SameMembers s.weekdays t.weekdays
  hours : SameMembers s.hours t.hours
  minutes : SameMembers s.minutes t.minutes
  seconds : SameMembers s.seconds t.seconds

namespace Reorders

variable {s t : Schedule} {moment : Timestamp}

theorem hasListPart_eq (same : s.Reorders t) : s.hasListPart = t.hasListPart := by
  unfold hasListPart
  rw [same.months.isEmpty_eq, same.monthDays.isEmpty_eq, same.yearDays.isEmpty_eq,
    same.weekNumbers.isEmpty_eq, same.weekdays.isEmpty_eq, same.hours.isEmpty_eq,
    same.minutes.isEmpty_eq, same.seconds.isEmpty_eq]

theorem checkChoice_eq (same : s.Reorders t) : s.checkChoice = t.checkChoice := by
  funext choice
  unfold checkChoice ordinalLimit?
  rw [same.frequency, same.weekNumbers.isEmpty_eq]

/-- Whether the list parts fit the frequency does not depend on the order of their entries. -/
theorem checkFrequencyParts_ok_iff (same : s.Reorders t) :
    s.checkFrequencyParts = .ok () ↔ t.checkFrequencyParts = .ok () := by
  rw [Schedule.checkFrequencyParts_ok_iff, Schedule.checkFrequencyParts_ok_iff, same.frequency,
    same.checkChoice_eq, same.weekdays.forall_iff, ne_eq, ne_eq, ne_eq, same.weekNumbers.nil_iff,
    same.yearDays.nil_iff, same.monthDays.nil_iff]

/-- Whether some month has some of the days does not depend on their order. -/
theorem checkReachable_ok_iff (same : s.Reorders t) (whole : ∀ d ∈ s.monthDays, d.IsWhole)
    (known : ∀ d ∈ s.months, ∃ month, d.toMonth? = some month) :
    s.checkReachable = .ok () ↔ t.checkReachable = .ok () := by
  rw [Schedule.checkReachable_ok_iff whole known,
    Schedule.checkReachable_ok_iff (same.monthDays.forall_iff.mp whole)
      (same.months.forall_iff.mp known), same.monthDays.nil_iff, same.months.nil_iff]
  simp only [same.months _, same.monthDays _]

/-- A schedule with reordered lists passes its check when the first does, as long as the
numbers of both are integers of their ranges and the months are known. -/
theorem check_ok_iff (same : s.Reorders t) (ranges : s.checkRanges = .ok ())
    (otherRanges : t.checkRanges = .ok ()) (integers : ∀ d ∈ s.monthDays, ∃ n, d = .int n)
    (known : ∀ d ∈ s.months, ∃ month, d.toMonth? = some month) :
    s.check moment = .ok () ↔ t.check moment = .ok () := by
  rw [Schedule.check_ok_iff, Schedule.check_ok_iff, same.checkFrequencyParts_ok_iff, ne_eq, ne_eq,
    same.setPositions.nil_iff, same.hasListPart_eq, same.ends, same.count,
    same.checkReachable_ok_iff (fun d member => Datum.isWhole_of_int (integers d member)) known]
  simp only [ranges, otherRanges]

end Reorders

end Schedule

namespace Series

variable {s t : Schedule} {moment start : Timestamp}

theorem intervalOf_reordered (same : s.Reorders t) : intervalOf t = intervalOf s := by
  unfold intervalOf
  rw [same.interval]

theorem integers_same {values others : List Datum} (same : SameMembers values others) :
    SameMembers (integers values) (integers others) :=
  same.filterMap _

theorem wantedOf_same {ns ms : List Int} (same : SameMembers ns ms) :
    SameWanted (wantedOf ns) (wantedOf ms) := by
  unfold wantedOf
  rw [same.isEmpty_eq]
  split
  · exact .inl ⟨rfl, rfl⟩
  · exact .inr ⟨ns, ms, rfl, rfl, same⟩

/-- A part of the clock is read alike from integers in whatever order. -/
theorem readClockPart_related {size : Nat} {finer own : Bool} {interval begin : Nat} {ns ms : List Int}
    (exclusive : own = true → finer = false) (inside : ∀ n ∈ ns, 0 ≤ n ∧ n ≤ (size : Int) - 1)
    (same : SameMembers ns ms) :
    Outcome.Related SameWanted (readClockPart size finer own interval begin (ns.map .int))
      (readClockPart size finer own interval begin (ms.map .int)) := by
  have reaches : SameMembers (reached size interval begin ns) (reached size interval begin ms) :=
    same.filter _
  rw [readClockPart_int interval begin exclusive inside,
    readClockPart_int interval begin exclusive (same.forall_iff.mp inside), same.isEmpty_eq,
    reaches.isEmpty_eq]
  split
  · exact .ok (.inl ⟨rfl, rfl⟩)
  · split
    · split
      · exact .error _
      · exact .ok (.inr ⟨_, _, rfl, rfl, reaches⟩)
    · exact .ok (.inr ⟨_, _, rfl, rfl, same⟩)

/-- Whether what is wanted of the hours, minutes and seconds has the same members. -/
def SameClock (clock other : Option (List Int) × Option (List Int) × Option (List Int)) : Prop :=
  SameWanted clock.1 other.1 ∧ SameWanted clock.2.1 other.2.1 ∧ SameWanted clock.2.2 other.2.2

theorem readClock_related (same : s.Reorders t) (sound : s.IsSound moment)
    (otherSound : t.IsSound moment) (interval : Nat) (start : Timestamp) :
    Outcome.Related SameClock (readClock s interval start) (readClock t interval start) := by
  obtain ⟨⟨hours, inHours⟩, ⟨minutes, inMinutes⟩, ⟨seconds, inSeconds⟩⟩ := clock_of_sound sound
  obtain ⟨⟨otherHours, _⟩, ⟨otherMinutes, _⟩, ⟨otherSeconds, _⟩⟩ := clock_of_sound otherSound
  obtain ⟨hourly, minutely, secondly⟩ := own_exclusive s.frequency
  unfold readClock
  rw [same.frequency, hours, otherHours, minutes, otherMinutes, seconds, otherSeconds]
  refine (readClockPart_related hourly inHours (integers_same same.hours)).bind fun _ _ sameHours => ?_
  refine (readClockPart_related minutely inMinutes (integers_same same.minutes)).bind
    fun _ _ sameMinutes => ?_
  refine (readClockPart_related secondly inSeconds (integers_same same.seconds)).bind
    fun _ _ sameSeconds => ?_
  exact .ok ⟨sameHours, sameMinutes, sameSeconds⟩

theorem leavesDaysOpen_eq (same : s.Reorders t) : leavesDaysOpen s = leavesDaysOpen t := by
  unfold leavesDaysOpen
  rw [same.weekNumbers.isEmpty_eq, same.yearDays.isEmpty_eq, same.monthDays.isEmpty_eq,
    same.weekdays.isEmpty_eq]

/-- Days are filled in alike. -/
theorem fillDays_alike {series other : Series} (same : s.Reorders t) (alike : series.Alike other) :
    (fillDays s series).Alike (fillDays t other) := by
  have day : SameWanted (some [(series.start.date.day : Int)]) (some [(other.start.date.day : Int)]) := by
    rw [alike.start]
    exact .refl _
  unfold fillDays
  rw [leavesDaysOpen_eq same]
  by_cases isOpen : leavesDaysOpen t = true
  · rw [if_pos isOpen, if_pos isOpen]
    have frequency := alike.frequency
    cases kind : series.frequency with
    | yearly =>
      rw [kind] at frequency
      simp only [frequency]
      have months : SameMembers
          (if series.months.isEmpty then [series.start.date.month] else series.months)
          (if other.months.isEmpty then [other.start.date.month] else other.months) := by
        rw [alike.months.isEmpty_eq, alike.start]
        split
        · exact .refl _
        · exact alike.months
      exact { alike with frequency := rfl, months := months, monthDays := day }
    | monthly =>
      rw [kind] at frequency
      simp only [frequency]
      exact { alike with frequency := rfl, monthDays := day }
    | weekly =>
      rw [kind] at frequency
      simp only [frequency, alike.start]
      exact { alike with frequency := rfl, start := rfl, weekdays := .refl _ }
    | _ =>
      rw [kind] at frequency
      simp only [frequency]
      exact alike
  · rw [if_neg isOpen, if_neg isOpen]
    exact alike

theorem bound_alike (same : s.Reorders t) (start : Timestamp)
    {clock other : Option (List Int) × Option (List Int) × Option (List Int)}
    (sameClock : SameClock clock other) : (bound s start clock).Alike (bound t start other) := by
  refine fillDays_alike same ?_
  constructor
  case frequency => exact same.frequency
  case interval => exact congrArg (max 1) (intervalOf_reordered same)
  case weekStart => exact same.weekStart
  case start => rfl
  case setPositions => exact integers_same same.setPositions
  case months => exact same.months.filterMap _
  case monthDays => exact wantedOf_same (integers_same same.monthDays)
  case yearDays => exact wantedOf_same (integers_same same.yearDays)
  case weekNumbers => exact integers_same same.weekNumbers
  case weekdays => exact same.weekdays.filterMap _
  case ordinals => exact same.weekdays.filterMap _
  case hours => exact sameClock.1
  case minutes => exact sameClock.2.1
  case seconds => exact sameClock.2.2

/-- Sound schedules with reordered lists are bound to series with the same occurrences, or cannot
be bound for the same reason. -/
theorem ofSchedule_related (same : s.Reorders t) (sound : s.IsSound moment)
    (otherSound : t.IsSound moment) (start : Timestamp) :
    Outcome.Related (fun series other => series.occurrences = other.occurrences)
      (ofSchedule s start) (ofSchedule t start) := by
  rw [ofSchedule_eq sound, ofSchedule_eq otherSound, intervalOf_reordered same]
  refine (readClock_related same sound otherSound _ _).map fun clock other sameClock => ?_
  refine (bound_alike same start sameClock).occurrences_eq ?_ ?_
  · rw [bound_ends, bound_ends, same.ends]
  · rw [bound_count, bound_count, same.count]

end Series

end Recurrence
