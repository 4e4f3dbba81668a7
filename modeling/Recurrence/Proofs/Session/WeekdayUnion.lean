import Recurrence.Proofs.Rule.Segments
import Recurrence.Proofs.Schedule.Weekdays
import Recurrence.Proofs.Session.Admission
import Recurrence.Proofs.Session.Expansion

namespace Recurrence

namespace Rule

/-- The rule with other weekdays. -/
def on (r : Rule) (days : List Datum) : Rule := { r with weekdays := days }

/-- The name of the part that holds the weekdays. -/
def weekdayName : Text := ListPart.weekday.name.toList

theorem replace_weekdays (r : Rule) (days : List Datum) :
    r.replace [(weekdayName, .tuple days)] = .ok (r.on days) :=
  r.replace_setting (.list .weekday days)

/-- Whether a weekday entry comes with an ordinal. -/
def hasOrdinal (entry : Datum) : Bool := (occurrenceParts entry).1 != .none

theorem isNth_of_readChoice {entry : Datum} {choice : DayChoice}
    (read : readChoice entry = .ok choice.toDatum) : choice.isNth = hasOrdinal entry := by
  unfold readChoice at read
  unfold hasOrdinal
  dsimp only at read
  split at read
  · cases read
  · split at read
    · rename_i plain
      rw [plain]
      cases choice with
      | every _ => rfl
      | nth _ _ => cases read
    · rename_i n numbered
      rw [numbered]
      cases choice with
      | every _ => cases read
      | nth _ _ => rfl
    · cases read

/-- Whether weekday entries are all without an ordinal, or all with one. -/
def OfOneKind (days : List Datum) : Prop := ∃ kind, ∀ entry ∈ days, hasOrdinal entry = kind

theorem Reads.ofOneKind_iff {days : List Datum} {choices : List DayChoice}
    (reads : Reads days choices) :
    OfOneKind days ↔ ∃ kind, ∀ choice ∈ choices, choice.isNth = kind := by
  refine exists_congr fun kind => ⟨fun uniform choice member => ?_, fun uniform entry member => ?_⟩
  · obtain ⟨entry, among, read⟩ := Outcome.exists_of_mem_right reads member
    rw [isNth_of_readChoice read, uniform entry among]
  · obtain ⟨choice, among, read⟩ := Outcome.exists_of_mem_left reads member
    rw [← isNth_of_readChoice read, uniform choice among]

theorem Reads.filter {days : List Datum} {choices : List DayChoice} (reads : Reads days choices)
    (p : Bool → Bool) :
    Reads (days.filter fun entry => p (hasOrdinal entry))
      (choices.filter fun choice => p choice.isNth) := by
  refine List.rel_filter (fun entry choice read => ?_) reads
  dsimp only
  rw [isNth_of_readChoice read]

/-- Whether a rule is valid from a start on and, with no error, expands to the given
occurrences. -/
def Yields (r : Rule) (start : Datum) (ts : List Timestamp) : Prop :=
  r.validate start = .ok () ∧ ∃ moment schedule, readStart start = .ok moment ∧
    r.toSchedule = .ok schedule ∧ (schedule.occurrences moment .none .none false).collect = .ok ts

theorem yields_iff {r : Rule} {start : Datum} {ts : List Timestamp} :
    r.Yields start ts ↔ r.validate start = .ok () ∧ ∃ moment schedule series,
      readStart start = .ok moment ∧ r.toSchedule = .ok schedule ∧
      Series.ofSchedule schedule moment = .ok series ∧ series.occurrences.ending = none ∧
      series.occurrences.items = ts := by
  refine and_congr_right fun _ => exists_congr fun moment => exists_congr fun schedule => ?_
  constructor
  · rintro ⟨begun, made, collected⟩
    cases bound : Series.ofSchedule schedule moment with
    | error fault =>
      unfold Schedule.occurrences at collected
      rw [bound] at collected
      cases collected
    | ok series =>
      rw [Schedule.occurrences_unbounded bound, Run.collect_eq] at collected
      split at collected
      · rename_i complete
        exact ⟨series, begun, made, rfl, complete, Except.ok.inj collected⟩
      · cases collected
  · rintro ⟨series, begun, made, bound, complete, rfl⟩
    rw [Schedule.occurrences_unbounded bound]
    exact ⟨begun, made, Run.collect_of_complete complete⟩

/-- Whether a rule does so once its weekdays are replaced. -/
def YieldsOn (r : Rule) (start : Datum) (days : List Datum) (ts : List Timestamp) : Prop :=
  ∃ changed, r.replace [(weekdayName, .tuple days)] = .ok changed ∧ changed.Yields start ts

/-- What a rule yields is what it asks for. -/
theorem Yields.admits {r : Rule} {start : Datum} {moment t : Timestamp} {ts : List Timestamp}
    (yields : r.Yields start ts) (begun : readStart start = .ok moment) (member : t ∈ ts) :
    r.Admits moment t := by
  obtain ⟨valid, _, schedule, again, made, collected⟩ := yields
  obtain ⟨_, settled, read, settles, checked⟩ := validate_ok_iff.mp valid
  cases begun.symm.trans again
  cases begun.symm.trans read
  cases made.symm.trans (toSchedule_ok_iff.mpr settles)
  rw [← Run.items_of_collect collected] at member
  rcases schedule.items_occurrences moment .none .none false with nothing | ⟨series, bound, part⟩
  · rw [nothing] at member
    cases member
  · exact settles.admits (settles.isSound checked) (aware_of_readStart begun) bound
      (series.occurrences_sublist_unlimited.subset (part.subset member))

/-- A rule with other weekdays settles to the schedule with the choices that these are. -/
theorem Settles.on {r : Rule} {schedule : Schedule} (settles : r.Settles schedule)
    {days : List Datum} {choices : List DayChoice} (reads : Reads days choices) :
    (r.on days).Settles (schedule.on choices) where
  frequency := settles.frequency
  sameInterval := settles.sameInterval
  interval := settles.interval
  sameCount := settles.sameCount
  count := settles.count
  ends := settles.ends
  weekStart := settles.weekStart
  weekdays := reads_iff.mp reads
  sameValues part other := by
    have same := settles.sameValues part other
    cases part with
    | weekday => exact absurd rfl other
    | _ => exact same
  inRange part := by
    have checked := settles.inRange part
    cases part <;> exact checked

/-- The schedules of rules that have nothing but their weekdays apart differ in nothing else. -/
theorem Settles.eq_on {r : Rule} {schedule others : Schedule} {first second : List Datum}
    (settles : (r.on first).Settles schedule) (otherSettles : (r.on second).Settles others) :
    others = schedule.on others.weekdays :=
  Except.ok.inj ((toSchedule_ok_iff.mpr otherSettles).symm.trans
    (toSchedule_ok_iff.mpr (settles.on otherSettles.choices)))

/-- What is known of a monthly rule without count and set positions that has weekdays. -/
structure IsMonthly (r : Rule) (schedule : Schedule) (start : Datum) (moment : Timestamp) : Prop where
  settles : r.Settles schedule
  begun : readStart start = .ok moment
  checked : schedule.check moment = .ok ()
  monthly : schedule.frequency = .monthly
  uncounted : schedule.count = .none
  unplaced : schedule.setPositions = []
  given : schedule.weekdays ≠ []

namespace IsMonthly

variable {r : Rule} {schedule : Schedule} {moment : Timestamp} {start : Datum}
  {clock : Option (List Int) × Option (List Int) × Option (List Int)}

theorem of_validate (monthly : r.frequency.toFrequency = .ok .monthly) (uncounted : r.count = .none)
    (unplaced : r.setPositions = []) (given : r.weekdays ≠ []) (valid : r.validate start = .ok ()) :
    ∃ schedule moment, r.IsMonthly schedule start moment := by
  obtain ⟨moment, schedule, begun, settles, checked⟩ := validate_ok_iff.mp valid
  exact ⟨schedule, moment, settles, begun, checked,
    Except.ok.inj (settles.frequency.symm.trans monthly), settles.sameCount.trans uncounted,
    (settles.sameValues .setPosition (by decide)).trans unplaced, settles.weekdays_ne_nil given⟩

/-- The moments of a monthly rule can show all that it wants of the clock. -/
theorem readClock_ok (is : r.IsMonthly schedule start moment) :
    ∃ clock, Series.readClock schedule (Series.intervalOf schedule) moment.aware.cutSeconds =
      .ok clock := by
  refine Series.readClock_ok (is.settles.isSound is.checked) fun within => ?_
  rw [is.monthly] at within
  cases within

/-- With other weekdays, each of which passes its check, a monthly rule expands to those
moments in its months that fall on them. -/
theorem yields (is : r.IsMonthly schedule start moment)
    (read : Series.readClock schedule (Series.intervalOf schedule) moment.aware.cutSeconds = .ok clock)
    {days : List Datum} {choices : List DayChoice} (reads : Reads days choices)
    (fits : ∀ choice ∈ choices, schedule.checkChoice choice = .ok ())
    (present : choices ≠ []) :
    ∃ ts, r.YieldsOn start days ts ∧ (ts.map Timestamp.instant).Pairwise (· < ·) ∧ ∀ t, t ∈ ts ↔
      (Series.bound schedule moment clock).LiesInMonths t ∧ Schedule.FallsOn choices t := by
  have settles := is.settles.on reads
  have checked := Schedule.check_on is.checked is.unplaced fits
  have sound := settles.isSound checked
  have soundSeries := Series.bound_isSound sound moment clock
  have monthly : (Series.bound (schedule.on choices) moment clock).frequency = .monthly :=
    (Series.bound_frequency ..).trans is.monthly
  have bound : Series.ofSchedule (schedule.on choices) moment =
      .ok (Series.bound (schedule.on choices) moment clock) := by
    rw [Series.ofSchedule_eq sound moment]
    change (Series.readClock schedule (Series.intervalOf schedule) _).map _ = _
    rw [read]
    rfl
  have complete : (Series.bound (schedule.on choices) moment clock).occurrences.ending = none :=
    (Series.ending_occurrences _).mpr fun _ => Series.complete_of_monthly soundSeries monthly
  have valid : (r.on days).validate start = .ok () :=
    validate_ok_iff.mpr ⟨moment, schedule.on choices, is.begun, settles, checked⟩
  refine ⟨_, ⟨r.on days, r.replace_weekdays days, yields_iff.mpr ⟨valid, moment, _, _, is.begun,
    toSchedule_ok_iff.mpr settles, bound, complete, rfl⟩⟩, Series.occurrences_ascending _, fun t => ?_⟩
  · have whole : (Series.bound (schedule.on choices) moment clock).start.micros = 0 := by
      rw [Series.bound_start]
      rfl
    have uncounted : (Series.bound (schedule.on choices) moment clock).count = none := by
      have none : (schedule.on choices).count = .none := is.uncounted
      rw [Series.bound_count, none]
      rfl
    have unplaced : (Series.bound (schedule.on choices) moment clock).setPositions = [] := by
      have nothing : (schedule.on choices).setPositions = [] := is.unplaced
      rw [Series.bound_setPositions, nothing]
      rfl
    rw [Series.mem_occurrences_of_monthly soundSeries monthly whole uncounted unplaced,
      Series.fallsOnWeekdays_iff sound present]
    exact and_congr_left fun _ => Series.liesInMonths_on (s := schedule) is.given present

end IsMonthly

theorem yieldsOn_on {r : Rule} {start : Datum} {first days : List Datum} {ts : List Timestamp} :
    (r.on first).YieldsOn start days ts ↔ r.YieldsOn start days ts := by
  unfold YieldsOn
  rw [replace_weekdays, replace_weekdays]
  rfl

/-- Of the weekdays of a monthly rule, those without an ordinal are alternatives, and so are
those with one; but when there are both, they are two conditions. Two lists together give
what either of them gives when all of their entries are of one kind, and otherwise only
what the entries of both kinds give. -/
theorem weekdays_combine {r : Rule} {start : Datum} {first second : List Datum}
    (monthly : r.frequency.toFrequency = .ok .monthly) (uncounted : r.count = .none)
    (unplaced : r.setPositions = []) (given : first ≠ []) (otherGiven : second ≠ [])
    (valid : (r.on first).validate start = .ok ())
    (otherValid : (r.on second).validate start = .ok ()) :
    ∃ ofFirst ofSecond ofBoth, r.YieldsOn start first ofFirst ∧ r.YieldsOn start second ofSecond ∧
      r.YieldsOn start (first ++ second) ofBoth ∧
      (ofBoth.map Timestamp.instant).Pairwise (· < ·) ∧
      (OfOneKind (first ++ second) → ∀ t, t ∈ ofBoth ↔ t ∈ ofFirst ∨ t ∈ ofSecond) ∧
      (¬OfOneKind (first ++ second) → ∃ plain numbered,
        r.YieldsOn start ((first ++ second).filter fun entry => !hasOrdinal entry) plain ∧
        r.YieldsOn start ((first ++ second).filter hasOrdinal) numbered ∧
        ∀ t, t ∈ ofBoth ↔ t ∈ plain ∧ t ∈ numbered) := by
  obtain ⟨schedule, moment, is⟩ : ∃ schedule moment, (r.on first).IsMonthly schedule start moment :=
    IsMonthly.of_validate monthly uncounted unplaced given valid
  obtain ⟨_, others, _, otherSettles, otherChecked⟩ := validate_ok_iff.mp otherValid
  obtain ⟨clock, read⟩ := is.readClock_ok
  have fits := Schedule.fits_of_check is.checked
  have otherFits : ∀ choice ∈ others.weekdays, schedule.checkChoice choice = .ok () := by
    have each := Schedule.fits_of_check otherChecked
    rw [is.settles.eq_on otherSettles] at each
    exact each
  have bothFit : ∀ choice ∈ schedule.weekdays ++ others.weekdays,
      schedule.checkChoice choice = .ok () :=
    List.forall_mem_append.mpr ⟨fits, otherFits⟩
  have reads : Reads (first ++ second) (schedule.weekdays ++ others.weekdays) :=
    List.rel_append is.settles.choices otherSettles.choices
  obtain ⟨ofFirst, yieldsFirst, _, memFirst⟩ := is.yields read is.settles.choices fits is.given
  obtain ⟨ofSecond, yieldsSecond, _, memSecond⟩ := is.yields read otherSettles.choices otherFits
    (otherSettles.weekdays_ne_nil otherGiven)
  obtain ⟨ofBoth, yieldsBoth, ascending, memBoth⟩ := is.yields read reads bothFit
    (List.append_ne_nil_of_left_ne_nil is.given _)
  refine ⟨ofFirst, ofSecond, ofBoth, yieldsOn_on.mp yieldsFirst, yieldsOn_on.mp yieldsSecond,
    yieldsOn_on.mp yieldsBoth, ascending, fun uniform t => ?_, fun mixed => ?_⟩
  · obtain ⟨kind, every⟩ := reads.ofOneKind_iff.mp uniform
    rw [memBoth, memFirst, memSecond,
      Schedule.fallsOn_append is.given (otherSettles.weekdays_ne_nil otherGiven) every]
    exact and_or_left
  · have mixed := Schedule.exists_of_mixed (reads.ofOneKind_iff.not.mp mixed)
    have yieldsOf (p : Bool → Bool) (kind : Bool) (isKind : p kind = true) :=
      is.yields read (reads.filter p)
        (fun choice member => bothFit choice (List.mem_filter.mp member).1) (by
          obtain ⟨choice, member, same⟩ := mixed kind
          exact List.ne_nil_of_mem (List.mem_filter.mpr ⟨member, by rw [same, isKind]⟩))
    obtain ⟨plain, yieldsPlain, _, memPlain⟩ := yieldsOf not false rfl
    obtain ⟨numbered, yieldsNumbered, _, memNumbered⟩ := yieldsOf id true rfl
    refine ⟨plain, numbered, yieldsOn_on.mp yieldsPlain, yieldsOn_on.mp yieldsNumbered, fun t => ?_⟩
    rw [memBoth, memPlain, memNumbered, Schedule.fallsOn_kinds]
    exact and_and_left

/-- Every month. -/
def everyMonth : Rule := Rule.bare (.frequency .monthly)

/-- Midnight at the beginning of Monday, the first of September 2025, in UTC. -/
def september : Timestamp where
  seconds := 63892281600
  micros := 0
  offset := some 0
  seconds_lt := by decide
  micros_lt := Timestamp.zero_micros_lt

/-- The schedule of the rule for all Mondays. -/
def mondaySchedule : Schedule := everyMonth.scheduleWith .monthly .monday none [.every .monday]

/-- What the rule for all Mondays is bound to. -/
def mondaySeries : Series := Series.bound mondaySchedule september (none, none, none)

theorem september_mem_mondaySeries : september ∈ mondaySeries.occurrences.items := by
  have known : mondaySeries.yearTable 24308 = .ok ⟨739252, [], []⟩ := rfl
  obtain ⟨rest, given⟩ : ∃ rest, mondaySeries.candidates [0]
      [739495, 739502, 739509, 739516, 739523] = .next september rest := ⟨_, rfl⟩
  obtain ⟨more, first⟩ : ∃ more, mondaySeries.occurrences = .next september more :=
    Series.occurrences_first mondaySeries.firstPeriod_inside known given rfl rfl rfl
  rw [first]
  exact List.mem_cons_self ..

/-- The first Monday of September is a Monday, but it is no occurrence of the rule for
Mondays and second Mondays. -/
theorem weekdays_combine_mondays :
    ∃ ofFirst ofBoth, everyMonth.YieldsOn (.moment september) [.every (.weekday .monday)] ofFirst ∧
      everyMonth.YieldsOn (.moment september)
        [.every (.weekday .monday), .nth (.int 2) (.weekday .monday)] ofBoth ∧
      september ∈ ofFirst ∧ september ∉ ofBoth := by
  have valid : (everyMonth.on [.every (.weekday .monday)]).validate (.moment september) = .ok () := rfl
  have otherValid : (everyMonth.on [.nth (.int 2) (.weekday .monday)]).validate (.moment september) =
      .ok () := rfl
  obtain ⟨ofFirst, _, ofBoth, yieldsFirst, _, yieldsBoth, _, _, apart⟩ :=
    weekdays_combine rfl rfl rfl (by simp) (by simp) valid otherValid
  have mixed : ¬OfOneKind ([.every (.weekday .monday)] ++ [.nth (.int 2) (.weekday .monday)]) := by
    rintro ⟨kind, every⟩
    cases every (.every (.weekday .monday)) (by simp)
    cases every (.nth (.int 2) (.weekday .monday)) (by simp)
  obtain ⟨_, numbered, _, yieldsNumbered, mem_iff⟩ := apart mixed
  refine ⟨ofFirst, ofBoth, yieldsFirst, yieldsBoth, ?_, fun member => ?_⟩
  · have sharp : readStart (.moment september) = .ok september := rfl
    have own : (everyMonth.on [.every (.weekday .monday)]).toSchedule = .ok mondaySchedule := rfl
    have bound : Series.ofSchedule mondaySchedule september = .ok mondaySeries := rfl
    obtain ⟨_, replaced, _, moment, schedule, begun, made, collected⟩ := yieldsFirst
    rw [replace_weekdays] at replaced
    cases replaced
    cases sharp.symm.trans begun
    cases own.symm.trans made
    rw [Schedule.occurrences_unbounded bound] at collected
    rw [← Run.items_of_collect collected]
    exact september_mem_mondaySeries
  · obtain ⟨_, replaced, yields⟩ := yieldsNumbered
    rw [replace_weekdays] at replaced
    cases replaced
    have admits := yields.admits rfl ((mem_iff september).mp member).2
    have onlyNumbered (entry : Datum) (among : entry ∈ [Datum.nth (.int 2) (.weekday .monday)]) :
        ∃ n day, readChoice entry = .ok (.nth (.int n) (.weekday day)) := by
      rw [List.mem_singleton.mp among]
      exact ⟨2, .monday, rfl⟩
    obtain ⟨entry, among, n, day, read, _, nth⟩ := admits.nth rfl (by decide) onlyNumbered
    rw [List.mem_singleton.mp among] at read
    cases read
    exact absurd nth.1 (by decide)

end Rule

end Recurrence
