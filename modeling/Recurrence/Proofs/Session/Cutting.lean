import Recurrence.Proofs.Calendar.TimestampExchange
import Recurrence.Proofs.Interchange.Conversion
import Recurrence.Proofs.Schedule.Checks
import Recurrence.Proofs.Series.Cutting
import Recurrence.Proofs.Session.Progression
import Recurrence.Proofs.Session.WeekdayUnion

namespace Recurrence

namespace Schedule

/-- The schedule with a count and an end in place of its own. -/
def cutAt (s : Schedule) (count : Datum) (ends : Option Timestamp) : Schedule :=
  { s with count := count, ends := ends }

variable {s : Schedule} {start : Timestamp} {count : Datum} {ends : Option Timestamp}

/-- Of the stages of a check only one looks at the count and the end. -/
theorem check_cutAt_iff (checked : s.check start = .ok ()) :
    (s.cutAt count ends).check start = .ok () ↔
      ∀ t, ends = some t → count = .none ∧ start.instant ≤ t.instant := by
  obtain ⟨ranges, parts, positions, _, reachable⟩ := check_ok_iff.mp checked
  rw [check_ok_iff]
  exact ⟨fun stages => stages.2.2.2.1, fun fits => ⟨ranges, parts, positions, fits, reachable⟩⟩

/-- A schedule without a count takes on an end that is not before the start. -/
theorem check_ended_iff (checked : s.check start = .ok ()) (uncounted : s.count = .none)
    (last : Timestamp) :
    (s.cutAt s.count (some last)).check start = .ok () ↔ start.instant ≤ last.instant := by
  rw [check_cutAt_iff checked]
  constructor
  · exact fun fits => (fits last rfl).2
  · rintro le _ same
    cases same
    exact ⟨uncounted, le⟩

end Schedule

namespace Series

theorem bound_cutAt (schedule : Schedule) (start : Timestamp)
    (clock : Option (List Int) × Option (List Int) × Option (List Int)) (count : Datum)
    (ends : Option Timestamp) :
    bound (schedule.cutAt count ends) start clock =
      (bound schedule start clock).cutAt (countOf count) ends := by
  unfold bound fillDays
  change (if leavesDaysOpen schedule = true then _ else _) = _
  split
  · cases schedule with
    | mk frequency => cases frequency <;> rfl
  · rfl

end Series

namespace Rule

variable {r : Rule} {schedule : Schedule} {start : Datum} {ts : List Timestamp}

/-- A rule takes over a moment for its end, in UTC and cut to milliseconds, unless it is
out of range there. -/
theorem replace_ends (r : Rule) (u : Timestamp) :
    (∃ last, ∃ normal : last.isNormal = true, u.normalize? = some last ∧
      r.replace [(Part.ends.name.toList, .moment u)] = .ok (r.put (.ends last normal))) ∨
    u.normalize? = none ∧ r.replace [(Part.ends.name.toList, .moment u)] = .error .overflow := by
  have lists (part : ListPart) :
      r.draft.set .ends (.moment u) (.list part) = .tuple (r.values part) := rfl
  have offered : r.draft.set .ends (.moment u) .ends = .moment u := rfl
  rw [replace_part]
  rcases normalEnd_moment u with ⟨last, normal, found, kept⟩ | ⟨missing, failed⟩
  · refine .inl ⟨last, normal last rfl, found, ?_⟩
    simp only [ofDraft, lists, offered, Datum.toItems_tuple, kept]
    rfl
  · refine .inr ⟨missing, ?_⟩
    simp only [ofDraft, lists, offered, Datum.toItems_tuple, failed]
    rfl

/-- The values of a rule settle with another count and end when these make sense. -/
theorem Settles.cutAt (settles : r.Settles schedule) {g : Rule} {ends : Option Timestamp}
    (same : ∀ part, part ≠ .count → part ≠ .ends → g.draft part = r.draft part)
    (count : g.count = .none ∨ ∃ n : Int, g.count = .int n ∧ 0 ≤ n)
    (ending : g.ends = ends.elim .none Datum.moment) :
    g.Settles (schedule.cutAt g.count ends) := by
  have frequency : g.frequency = r.frequency := same .frequency (by decide) (by decide)
  have interval : g.interval = r.interval := same .interval (by decide) (by decide)
  have weekStart : g.weekStart = r.weekStart := same .weekStart (by decide) (by decide)
  have values (part : ListPart) : g.values part = r.values part :=
    Datum.tuple.inj (same (.list part) (fun list => nomatch list) fun list => nomatch list)
  have weekdays : g.weekdays = r.weekdays := values .weekday
  constructor
  case frequency => exact frequency ▸ settles.frequency
  case sameInterval => exact settles.sameInterval.trans interval.symm
  case interval => exact interval ▸ settles.interval
  case sameCount => rfl
  case count => exact count
  case ends => exact ending
  case weekStart => exact weekStart ▸ settles.weekStart
  case weekdays => exact weekdays ▸ settles.weekdays
  case sameValues =>
    intro part numeric
    have own := settles.sameValues part numeric
    rw [values]
    cases part <;> exact own
  case inRange =>
    intro part
    exact checkPart_of_subset (fun d member => values part ▸ member) (settles.inRange part)

theorem Settles.put_count (settles : r.Settles schedule) (n : Nat) :
    (r.put (.count n)).Settles (schedule.cutAt (.int n) schedule.ends) := by
  refine settles.cutAt (fun part other _ => ?_) (.inr ⟨n, rfl, Int.natCast_nonneg n⟩) settles.ends
  rw [draft_put]
  exact if_neg other

theorem Settles.put_ends (settles : r.Settles schedule) (last : Timestamp)
    (normal : last.isNormal = true) :
    (r.put (.ends last normal)).Settles (schedule.cutAt schedule.count (some last)) := by
  have cut : (r.put (.ends last normal)).Settles
      (schedule.cutAt (r.put (.ends last normal)).count (some last)) := by
    refine settles.cutAt (fun part _ other => ?_) settles.count rfl
    rw [draft_put]
    exact if_neg other
  rw [settles.sameCount]
  exact cut

/-- With an end a rule without a count stays valid when that is not before the start. -/
theorem Settles.validate_put_ends_iff (settles : r.Settles schedule) {moment : Timestamp}
    (checked : schedule.check moment = .ok ()) (uncounted : schedule.count = .none)
    (begun : readStart start = .ok moment) (last : Timestamp) (normal : last.isNormal = true) :
    (r.put (.ends last normal)).validate start = .ok () ↔ moment.instant ≤ last.instant := by
  have ended := settles.put_ends last normal
  rw [validate_ok_iff, ← Schedule.check_ended_iff checked uncounted last]
  constructor
  · rintro ⟨_, _, again, settled, fits⟩
    cases begun.symm.trans again
    cases (toSchedule_ok_iff.mpr ended).symm.trans (toSchedule_ok_iff.mpr settled)
    exact fits
  · exact fun fits => ⟨moment, _, begun, ended, fits⟩

/-- What is known of a rule without count and end that is valid from a start on, and whose
occurrences are found without an error. -/
structure IsOpen (r : Rule) (schedule : Schedule) (moment : Timestamp) (series : Series) : Prop where
  settles : r.Settles schedule
  checked : schedule.check moment = .ok ()
  bound : Series.ofSchedule schedule moment = .ok series
  complete : series.occurrences.ending = none
  uncounted : schedule.count = .none
  endless : schedule.ends = none

namespace IsOpen

variable {moment : Timestamp} {series : Series}

theorem of_yields (uncounted : r.count = .none) (endless : r.ends = .none) (yields : r.Yields start ts) :
    ∃ schedule moment series, readStart start = .ok moment ∧ r.IsOpen schedule moment series ∧
      series.occurrences.items = ts := by
  obtain ⟨valid, moment, schedule, series, begun, made, bound, complete, items⟩ := yields_iff.mp yields
  obtain ⟨other, settled, read, settles, checked⟩ := validate_ok_iff.mp valid
  cases begun.symm.trans read
  cases made.symm.trans (toSchedule_ok_iff.mpr settles)
  exact ⟨schedule, moment, series, begun, ⟨settles, checked, bound, complete,
    settles.sameCount.trans uncounted, settles.endless_iff.mp endless⟩, items⟩

theorem series_open (isOpen : r.IsOpen schedule moment series) :
    series.count = none ∧ series.ends = none := by
  obtain ⟨clock, _, rfl⟩ :=
    Series.exists_clock_of_ofSchedule (isOpen.settles.isSound isOpen.checked) isOpen.bound
  rw [Series.bound_count, Series.bound_ends, isOpen.uncounted, isOpen.endless]
  exact ⟨rfl, rfl⟩

/-- With another count and end, the series differs in these alone. -/
theorem ofSchedule_cutAt (isOpen : r.IsOpen schedule moment series) {g : Rule} {count : Datum}
    {ends : Option Timestamp} (settles : g.Settles (schedule.cutAt count ends))
    (checked : (schedule.cutAt count ends).check moment = .ok ()) :
    Series.ofSchedule (schedule.cutAt count ends) moment =
      .ok (series.cutAt (Series.countOf count) ends) := by
  obtain ⟨clock, read, rfl⟩ :=
    Series.exists_clock_of_ofSchedule (isOpen.settles.isSound isOpen.checked) isOpen.bound
  -- neither the count nor the end is looked at while the clock is read
  have same : Series.readClock (schedule.cutAt count ends) (Series.intervalOf (schedule.cutAt count ends))
      moment.aware.cutSeconds = .ok clock := read
  rw [Series.ofSchedule_eq (settles.isSound checked), same, ← Series.bound_cutAt]
  rfl

/-- What the rule yields with another count and end. -/
theorem yields_cutAt (isOpen : r.IsOpen schedule moment series) (begun : readStart start = .ok moment)
    {g : Rule} {count : Datum} {ends : Option Timestamp}
    (settles : g.Settles (schedule.cutAt count ends))
    (checked : (schedule.cutAt count ends).check moment = .ok ())
    (complete : (series.cutAt (Series.countOf count) ends).occurrences.ending = none) :
    g.Yields start (series.cutAt (Series.countOf count) ends).occurrences.items :=
  yields_iff.mpr ⟨validate_ok_iff.mpr ⟨moment, _, begun, settles, checked⟩, moment, _, _, begun,
    toSchedule_ok_iff.mpr settles, isOpen.ofSchedule_cutAt settles checked, complete, rfl⟩

/-- With a count the rule yields so many occurrences from the first on. -/
theorem yields_put_count (isOpen : r.IsOpen schedule moment series)
    (begun : readStart start = .ok moment) (n : Nat) :
    (r.put (.count n)).Yields start (series.occurrences.items.take n) := by
  obtain ⟨uncounted, endless⟩ := isOpen.series_open
  have settles := isOpen.settles.put_count n
  rw [isOpen.endless] at settles
  have checked : (schedule.cutAt (.int n) none).check moment = .ok () :=
    (Schedule.check_cutAt_iff isOpen.checked).mpr fun _ given => nomatch given
  have cut := Series.occurrences_counted uncounted n
  rw [endless] at cut
  have counted : Series.countOf (.int n) = some n := rfl
  have found := isOpen.yields_cutAt begun settles checked
  rw [counted, cut, Run.items_cut] at found
  exact found (Run.ending_cut_of_none isOpen.complete)

/-- With an end the rule yields the occurrences that are not after it. -/
theorem yields_put_ends (isOpen : r.IsOpen schedule moment series)
    (begun : readStart start = .ok moment) {last : Timestamp} (normal : last.isNormal = true)
    (later : moment.instant ≤ last.instant) :
    (r.put (.ends last normal)).Yields start
      (series.occurrences.items.filter fun t => decide (t.instant ≤ last.instant)) := by
  obtain ⟨uncounted, endless⟩ := isOpen.series_open
  have noCount : Series.countOf schedule.count = none := by
    rw [isOpen.uncounted]
    rfl
  have found := isOpen.yields_cutAt begun (isOpen.settles.put_ends last normal)
    ((Schedule.check_ended_iff isOpen.checked isOpen.uncounted last).mpr later)
  rw [noCount, Series.items_ended uncounted endless] at found
  exact found (Series.ending_ended uncounted endless isOpen.complete last)

end IsOpen

/-- The name of the part that holds the count. -/
def countName : Text := Part.count.name.toList

/-- The name of the part that holds the end. -/
def endName : Text := Part.ends.name.toList

/-- A count and an end only cut a series. A rule that has neither, and whose occurrences are
found without an error, gives with a count the first so many of them, down to none, and with
an end those that are not after it. The end is kept in UTC, cut down to whole milliseconds, and
the rule is then still valid when it is not before the start. Only an end out of the years is
refused. -/
theorem limits_cut {r : Rule} {start : Datum} {ts : List Timestamp} (uncounted : r.count = .none)
    (endless : r.ends = .none) (yields : r.Yields start ts) :
    (∀ n : Nat, ∃ counted, r.replace [(countName, .int n)] = .ok counted ∧
      counted.Yields start (ts.take n)) ∧
    ∀ u : Timestamp,
      (¬u.IsWithinYears ∧ u.normalize? = none ∧
        r.replace [(endName, .moment u)] = .error .overflow) ∨
      ∃ last ended, u.normalize? = some last ∧ last.offset = some 0 ∧
        last.instant = u.instant - u.instant % 1000 ∧
        r.replace [(endName, .moment u)] = .ok ended ∧
        (ended.validate start = .ok () ↔
          ∃ moment, readStart start = .ok moment ∧ moment.instant ≤ last.instant) ∧
        (ended.validate start = .ok () →
          ended.Yields start (ts.filter fun t => decide (t.instant ≤ last.instant))) := by
  obtain ⟨schedule, moment, series, begun, isOpen, rfl⟩ := IsOpen.of_yields uncounted endless yields
  refine ⟨fun n => ⟨_, r.replace_setting (.count n), isOpen.yields_put_count begun n⟩, fun u => ?_⟩
  rcases r.replace_ends u with ⟨last, normal, known, replaced⟩ | ⟨missing, failed⟩
  · obtain ⟨zone, cut⟩ := Timestamp.instant_of_normalize? known
    have accepted :=
      isOpen.settles.validate_put_ends_iff isOpen.checked isOpen.uncounted begun last normal
    refine .inr ⟨last, _, known, zone, cut, replaced, ?_, fun valid => ?_⟩
    · rw [accepted]
      refine ⟨fun le => ⟨moment, begun, le⟩, ?_⟩
      rintro ⟨_, again, le⟩
      cases begun.symm.trans again
      exact le
    · exact isOpen.yields_put_ends begun normal (accepted.mp valid)
  · refine .inl ⟨fun within => ?_, missing, failed⟩
    obtain ⟨last, known⟩ := Timestamp.exists_normalize?_iff.mpr within
    cases missing.symm.trans known

/-- Two minutes before midnight at the end of the ninth of January 2025, two hours behind
UTC, with a fraction of a second. -/
def ninth : Timestamp where
  seconds := 63872063880
  micros := 123456
  offset := some (-7200)
  seconds_lt := by decide
  micros_lt := by decide

/-- Of every second day from the sixth of January 2025 on, a count of two leaves the sixth and
the eighth, a count of none leaves none, and an end that is the tenth in UTC leaves what is
not after it. -/
theorem limits_cut_secondDays :
    ∃ ts, Work.secondDays.Yields (.moment Work.midnight) ts ∧
      (∃ counted firsts, Work.secondDays.replace [(countName, .int 2)] = .ok counted ∧
        counted.Yields (.moment Work.midnight) firsts ∧
        firsts.map Timestamp.date = [⟨2025, 1, 6⟩, ⟨2025, 1, 8⟩]) ∧
      (∃ counted, Work.secondDays.replace [(countName, .int 0)] = .ok counted ∧
        counted.Yields (.moment Work.midnight) []) ∧
      ∃ last ended, ninth.normalize? = some last ∧ last.offset = some 0 ∧
        last.instant = ninth.instant - 456 ∧ last.date = ⟨2025, 1, 10⟩ ∧ last.micros = 123000 ∧
        Work.secondDays.replace [(endName, .moment ninth)] = .ok ended ∧
        ended.Yields (.moment Work.midnight) (ts.filter fun t => decide (t.instant ≤ last.instant)) := by
  have own : RuleSource.Means (some {}) {} (.rule Work.secondDays) Work.secondDays := rfl
  have made : Work.secondDays.toSchedule = .ok (.plain .daily 2 .monday) := rfl
  have valid : Work.secondDays.validate (.moment Work.midnight) = .ok () := rfl
  obtain ⟨series, bound, progression⟩ := Schedule.occurrences_plain .daily .monday
    (by decide : 1 ≤ 2) (by decide) (rfl : Work.midnight.aware.cutSeconds = Work.midnight)
  obtain ⟨_, _, _, means, _, again, started, complete⟩ := Work.gives_of_daily own valid made rfl
  cases means
  cases made.symm.trans again
  cases bound.symm.trans started
  have yields : Work.secondDays.Yields (.moment Work.midnight) series.occurrences.items := by
    refine ⟨valid, Work.midnight, _, rfl, made, ?_⟩
    rw [Schedule.occurrences_unbounded bound]
    exact Run.collect_of_complete complete
  obtain ⟨counts, ends⟩ := limits_cut rfl rfl yields
  refine ⟨_, yields, ?_, counts 0, ?_⟩
  · obtain ⟨counted, replaced, firsts⟩ := counts 2
    have shown : (Work.midnight.later? .daily (1 * 2)).isSome = true := by decide +kernel
    obtain ⟨rest, whole⟩ := progression.exists_eq_append shown
    refine ⟨counted, _, replaced, firsts, ?_⟩
    have first : ((List.range (1 + 1)).filterMap fun n => Work.midnight.later? .daily (n * 2)).map
        Timestamp.date = [⟨2025, 1, 6⟩, ⟨2025, 1, 8⟩] := by decide +kernel
    rw [whole, List.map_take, List.map_append, first]
    rfl
  · obtain ⟨_, missing, _⟩ | ⟨last, ended, known, zone, millis, replaced, accepted, cut⟩ := ends ninth
    · cases missing
    · cases known
      refine ⟨_, ended, rfl, zone, millis, by decide +kernel, rfl, replaced,
        cut (accepted.mpr ⟨_, rfl, ?_⟩)⟩
      decide

end Rule

end Recurrence
