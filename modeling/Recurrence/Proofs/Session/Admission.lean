import Recurrence.Proofs.Schedule.Parts
import Recurrence.Proofs.Series.Members
import Recurrence.Proofs.Series.Window
import Recurrence.Proofs.Session.Resolution

namespace Recurrence

namespace Rule

/-- What a rule asks of each moment of its expansion from a start on. The moment and the
start are shown by the same clock. -/
structure Admits (r : Rule) (start t : Timestamp) : Prop where
  offset : t.offset = start.offset
  begun : start.cutSeconds.instant ≤ t.instant
  ends : ∀ last, r.ends = .moment last → t.instant ≤ last.instant
  month : r.months ≠ [] → .int t.date.month ∈ r.months
  hour : Schedule.Wants r.hours t.hour
  minute : Schedule.Wants r.minutes t.minute
  second : Schedule.Wants r.seconds t.second
  monthDay : r.monthDays ≠ [] → ∃ n, .int n ∈ r.monthDays ∧ t.date.IsDayOfMonth n
  weekday : r.weekdays ≠ [] → ∃ entry ∈ r.weekdays, ∃ choice : DayChoice,
    readChoice entry = .ok choice.toDatum ∧ choice.day.index = Weekday.indexOfNumber t.dayNumber
  nth : r.frequency.toFrequency = .ok .monthly → r.weekdays ≠ [] →
    (∀ entry ∈ r.weekdays, ∃ n day, readChoice entry = .ok (.nth (.int n) (.weekday day))) →
      ∃ entry ∈ r.weekdays, ∃ n day, readChoice entry = .ok (.nth (.int n) (.weekday day)) ∧
        day.index = Weekday.indexOfNumber t.dayNumber ∧ t.date.IsNthInMonth n

/-- Whether moments are what a rule asks for from a start on: each of them by itself, one
after the other, and not too many. -/
structure Respects (r : Rule) (start : Timestamp) (ts : List Timestamp) : Prop where
  each : ∀ t ∈ ts, r.Admits start t
  ascending : (ts.map Timestamp.instant).Pairwise (· < ·)
  count : ∀ n : Int, r.count = .int n → (ts.length : Int) ≤ n

theorem Respects.sublist {r : Rule} {start : Timestamp} {ts others : List Timestamp}
    (respects : r.Respects start ts) (fewer : others.Sublist ts) : r.Respects start others where
  each t member := respects.each t (fewer.subset member)
  ascending := respects.ascending.sublist (fewer.map _)
  count n counted := by
    have few := respects.count n counted
    have shorter := fewer.length_le
    omega

/-- Whether weekday entries, one by one, are read as the given choices. -/
def Reads (days : List Datum) (choices : List DayChoice) : Prop :=
  List.Forall₂ (fun entry choice => readChoice entry = .ok choice.toDatum) days choices

theorem reads_iff {days : List Datum} {choices : List DayChoice} :
    Reads days choices ↔ readChoices days = .ok (choices.map DayChoice.toDatum) := by
  rw [readChoices_eq, Outcome.mapM_eq_ok_iff, List.forall₂_map_right_iff]
  rfl

theorem Settles.choices {r : Rule} {schedule : Schedule} (settles : r.Settles schedule) :
    Reads r.weekdays schedule.weekdays := reads_iff.mpr settles.weekdays

section Settled

variable {r : Rule} {schedule : Schedule} {moment start t : Timestamp} {series : Series}

theorem Settles.weekdays_ne_nil (settles : r.Settles schedule) (given : r.weekdays ≠ []) :
    schedule.weekdays ≠ [] := by
  intro nothing
  have each := settles.choices
  rw [nothing] at each
  exact given (List.forall₂_nil_right_iff.mp each)

theorem Settles.count_natural (settles : r.Settles schedule) {n : Int} (counted : r.count = .int n) :
    0 ≤ n := by
  rcases settles.count with missing | ⟨m, isInt, natural⟩
  · cases counted.symm.trans missing
  · cases counted.symm.trans isInt
    exact natural

/-- The moments of the series that a rule is bound to are those that the rule asks for. -/
theorem Settles.admits (settles : r.Settles schedule) (sound : schedule.IsSound moment)
    (aware : start.aware = start) (made : Series.ofSchedule schedule start = .ok series)
    (member : t ∈ series.unlimited.items) : r.Admits start t := by
  obtain ⟨clock, read, rfl⟩ := Series.exists_clock_of_ofSchedule sound made
  have begins : (Series.bound schedule start clock).start = start.cutSeconds := by
    rw [Series.bound_start, aware]
  have whole : (Series.bound schedule start clock).start.micros = 0 := by
    rw [begins]
    rfl
  rw [Series.mem_unlimited whole, begins, Series.bound_ends] at member
  obtain ⟨found, begun, before⟩ := member
  obtain ⟨period, table, origin⟩ := Series.comesFrom_of_mem_search .first found
  obtain ⟨hour, minute, second⟩ := Series.wants_of_bound sound read origin
  have hours : schedule.hours = r.hours := settles.sameValues .hour (by decide)
  have minutes : schedule.minutes = r.minutes := settles.sameValues .minute (by decide)
  have seconds : schedule.seconds = r.seconds := settles.sameValues .second (by decide)
  have months : schedule.months = r.months := settles.sameValues .month (by decide)
  have monthDays : schedule.monthDays = r.monthDays := settles.sameValues .monthDay (by decide)
  rw [hours] at hour
  rw [minutes] at minute
  rw [seconds] at second
  constructor
  case offset =>
    rw [origin.offset, begins]
    rfl
  case begun => exact begun
  case ends =>
    intro last given
    refine before last ?_
    have same := settles.ends
    rw [given] at same
    cases ends : schedule.ends with
    | none =>
      rw [ends] at same
      cases same
    | some own =>
      rw [ends] at same
      cases same
      rfl
  case month =>
    rw [← months]
    exact fun given => Series.month_of_bound sound given origin
  case hour => exact hour
  case minute => exact minute
  case second => exact second
  case monthDay =>
    rw [← monthDays]
    exact fun given => Series.monthDay_of_bound sound given origin
  case weekday =>
    intro given
    obtain ⟨choice, chosen, same⟩ :=
      Series.weekday_of_bound sound (settles.weekdays_ne_nil given) origin
    obtain ⟨entry, among, read⟩ := Outcome.exists_of_mem_right settles.choices chosen
    exact ⟨entry, among, choice, read, same⟩
  case nth =>
    intro monthly given numbered
    have kind : schedule.frequency = .monthly :=
      Except.ok.inj (settles.frequency.symm.trans monthly)
    have each (choice : DayChoice) (chosen : choice ∈ schedule.weekdays) :
        ∃ n day, choice = .nth (.int n) day := by
      obtain ⟨entry, among, read⟩ := Outcome.exists_of_mem_right settles.choices chosen
      obtain ⟨n, day, other⟩ := numbered entry among
      cases choice with
      | every own => cases read.symm.trans other
      | nth ordinal own =>
        cases read.symm.trans other
        exact ⟨n, day, rfl⟩
    obtain ⟨n, day, chosen, same, place⟩ :=
      Series.nth_of_bound sound kind (settles.weekdays_ne_nil given) each origin
    obtain ⟨entry, among, read⟩ := Outcome.exists_of_mem_right settles.choices chosen
    exact ⟨entry, among, n, day, read, same, place⟩

theorem Settles.respects (settles : r.Settles schedule) (sound : schedule.IsSound moment)
    (aware : start.aware = start) (made : Series.ofSchedule schedule start = .ok series) :
    r.Respects start series.occurrences.items where
  each _ member := settles.admits sound aware made (series.occurrences_sublist_unlimited.subset member)
  ascending := series.occurrences_ascending
  count n counted := by
    obtain ⟨clock, _, rfl⟩ := Series.exists_clock_of_ofSchedule sound made
    have limited : (Series.bound schedule start clock).count = some n.toNat := by
      rw [Series.bound_count, settles.sameCount, counted]
      rfl
    have few := Series.length_occurrences limited
    have natural := settles.count_natural counted
    omega

end Settled

end Rule

/-- What a schedule gives between two moments is nothing at all, or a part of the series
that it is bound to. -/
theorem Schedule.items_occurrences (schedule : Schedule) (start : Timestamp) (after before : Datum)
    (inclusive : Bool) :
    (schedule.occurrences start after before inclusive).items = [] ∨
      ∃ series, Series.ofSchedule schedule start = .ok series ∧
        (schedule.occurrences start after before inclusive).items.Sublist series.occurrences.items := by
  unfold occurrences
  cases made : Series.ofSchedule schedule start with
  | error fault => exact .inl rfl
  | ok series =>
    cases readAfter : after.toBound with
    | error fault => exact .inl rfl
    | ok a =>
      cases readBefore : before.toBound with
      | error fault => exact .inl rfl
      | ok b =>
        have inside := series.items_window a b inclusive
        exact .inr ⟨series, rfl, inside ▸ List.filter_sublist⟩

theorem Query.items_answer_sublist (query : Query) (schedule : Schedule) (start : Timestamp)
    (limits : Limits) :
    (query.answer schedule start limits).items.Sublist
      (schedule.occurrences start query.after query.before false).items := by
  unfold answer
  dsimp only
  split
  · rw [Run.items_filter]
    exact List.filter_sublist
  · rw [Run.items_cut, Run.items_filter]
    exact (List.take_sublist ..).trans List.filter_sublist

namespace Work

/-- Whatever is asked of the expansion of a valid rule, and before any error, each moment
found is one that the rule asks for, they come one after the other, and there are no more
of them than the count. -/
theorem expansion_respects {r : Rule} {start : Datum} (valid : r.validate start = .ok ()) :
    ∃ moment schedule, readStart start = .ok moment ∧ r.toSchedule = .ok schedule ∧
      (∀ after before inclusive,
        r.Respects moment (schedule.occurrences moment after before inclusive).items) ∧
      ∀ given limits before after, (limitsOr given).outcome before = (.ok limits, after) →
        ∀ query, ∃ run, (generate given (.rule r) start query).outcome before = (.ok run, after) ∧
          r.Respects moment run.items := by
  obtain ⟨moment, schedule, begun, settles, checked⟩ := Rule.validate_ok_iff.mp valid
  have made := Rule.toSchedule_ok_iff.mpr settles
  have every (after before : Datum) (inclusive : Bool) :
      r.Respects moment (schedule.occurrences moment after before inclusive).items := by
    rcases schedule.items_occurrences moment after before inclusive with nothing | ⟨series, bound, part⟩
    · rw [nothing]
      exact ⟨fun _ member => (nomatch member), List.Pairwise.nil, fun _ => settles.count_natural⟩
    · exact (settles.respects (settles.isSound checked) (aware_of_readStart begun) bound).sublist part
  refine ⟨moment, schedule, begun, made, every, fun given limits before after loaded query => ?_⟩
  exact ⟨_, outcome_generate begun made valid loaded query,
    (every query.after query.before false).sublist (query.items_answer_sublist schedule moment limits)⟩

/-- The last Friday of each month. -/
def lastFridays : Rule :=
  { Rule.bare (.frequency .monthly) with weekdays := [.nth (.int (-1)) (.weekday .friday)] }

/-- Half a second past nine in the morning of the sixth of January 2025, in UTC. -/
def pastNine : Timestamp where
  seconds := 63871750800
  micros := 500000
  offset := some 0
  seconds_lt := by decide
  micros_lt := by decide

theorem expansion_of_lastFridays :
    lastFridays.validate (.moment pastNine) = .ok () ∧
      ∀ query, ∃ run, (generate none (.rule lastFridays) (.moment pastNine) query).outcome {} =
          (.ok run, { ({} : Session) with limits := some {} }) ∧
        ∀ t ∈ run.items, pastNine.cutSeconds.instant ≤ t.instant ∧ t.date.IsNthInMonth (-1) := by
  have valid : lastFridays.validate (.moment pastNine) = .ok () := rfl
  have loaded : (limitsOr none).outcome {} = (.ok {}, { ({} : Session) with limits := some {} }) :=
    rfl
  refine ⟨valid, fun query => ?_⟩
  obtain ⟨moment, schedule, begun, _, _, expanded⟩ := expansion_respects valid
  cases begun
  obtain ⟨run, generated, respects⟩ := expanded _ _ _ _ loaded query
  refine ⟨run, generated, fun t member => ?_⟩
  have admits := respects.each t member
  refine ⟨admits.begun, ?_⟩
  have numbered (entry : Datum) (member : entry ∈ lastFridays.weekdays) :
      ∃ n day, Rule.readChoice entry = .ok (.nth (.int n) (.weekday day)) := by
    rw [List.mem_singleton.mp member]
    exact ⟨-1, .friday, rfl⟩
  obtain ⟨entry, among, n, day, read, _, nth⟩ := admits.nth rfl (by decide) numbered
  rw [List.mem_singleton.mp among] at read
  cases read
  exact nth

end Work

end Recurrence
