import Recurrence.Proofs.Session.Admission

namespace Recurrence

namespace Timestamp

variable {start t : Timestamp}

theorem instant_cutSeconds (start : Timestamp) :
    start.cutSeconds.instant = start.instant - start.micros := by
  unfold instant cutSeconds
  dsimp only
  omega

/-- On the clock of a start nothing lies between the second of the start and the start. -/
theorem second_or_later (offset : t.offset = start.offset) (whole : t.micros = 0)
    (begun : start.cutSeconds.instant ≤ t.instant) :
    t.instant = start.cutSeconds.instant ∨ start.instant < t.instant := by
  have fraction := start.micros_lt
  unfold instant cutSeconds at *
  rw [offset, whole] at *
  dsimp only at *
  omega

end Timestamp

theorem Series.shape_of_occurrence {series : Series} {t : Timestamp}
    (member : t ∈ series.occurrences.items) : t.offset = series.start.offset ∧ t.micros = 0 := by
  obtain ⟨_, _, given⟩ := mem_search (series.occurrences_sublist.subset member)
  exact shape_of_moment given

/-- Whether a start that has a fraction of a second is given without it. -/
def Timestamp.IsRoundedIn (start : Timestamp) (ts : List Timestamp) : Prop :=
  start.micros ≠ 0 ∧ start.cutSeconds.instant ∈ ts.map Timestamp.instant

/-- What is to be said of the start about occurrences that answer a query. -/
structure Query.KeepsStart (query : Query) (start : Timestamp) (ts : List Timestamp) : Prop where
  each : ∀ t ∈ ts, t.instant = start.cutSeconds.instant ∨ start.instant < t.instant
  skipped : query.includeStart = false → ∀ t ∈ ts, t.instant ≠ start.instant

namespace Query.KeepsStart

variable {query : Query} {start : Timestamp} {ts : List Timestamp}

/-- Nothing comes before the start unless the start is given without its fraction. -/
theorem notBefore_iff (keeps : query.KeepsStart start ts) :
    (∀ t ∈ ts, start.instant ≤ t.instant) ↔ ¬start.IsRoundedIn ts := by
  have second := start.instant_cutSeconds
  constructor
  · rintro notBefore ⟨fraction, member⟩
    obtain ⟨t, among, same⟩ := List.mem_map.mp member
    have := notBefore t among
    omega
  · intro notRounded t among
    rcases keeps.each t among with same | later
    · by_cases whole : start.micros = 0
      · omega
      · exact absurd ⟨whole, same ▸ List.mem_map_of_mem among⟩ notRounded
    · exact Int.le_of_lt later

/-- When the start is not to be included, all that comes is after it, but for the same
exception. -/
theorem after_iff (keeps : query.KeepsStart start ts) (excluded : query.includeStart = false) :
    (∀ t ∈ ts, start.instant < t.instant) ↔ ¬start.IsRoundedIn ts := by
  rw [← keeps.notBefore_iff]
  refine forall₂_congr fun t among => ?_
  have := keeps.skipped excluded t among
  omega

end Query.KeepsStart

section Answers

variable {schedule : Schedule} {moment start : Timestamp} {series : Series}

theorem Series.start_of_ofSchedule (sound : schedule.IsSound moment) (aware : start.aware = start)
    (made : Series.ofSchedule schedule start = .ok series) : series.start = start.cutSeconds := by
  obtain ⟨clock, _, rfl⟩ := exists_clock_of_ofSchedule sound made
  rw [bound_start, aware]

theorem Series.begun_of_occurrence (sound : schedule.IsSound moment) (aware : start.aware = start)
    (made : Series.ofSchedule schedule start = .ok series) {t : Timestamp}
    (member : t ∈ series.occurrences.items) : start.cutSeconds.instant ≤ t.instant := by
  have begins := start_of_ofSchedule sound aware made
  have whole : series.start.micros = 0 := by
    rw [begins]
    rfl
  have inside := ((mem_unlimited whole).mp (series.occurrences_sublist_unlimited.subset member)).2.1
  rwa [begins] at inside

theorem Query.keepsStart (query : Query) (sound : schedule.IsSound moment)
    (aware : start.aware = start) (limits : Limits) :
    query.KeepsStart start (query.answer schedule start limits).items where
  each t member := by
    have among := (query.items_answer_sublist schedule start limits).subset member
    rcases schedule.items_occurrences start query.after query.before false with
      nothing | ⟨series, made, part⟩
    · rw [nothing] at among
      cases among
    · have occurs := part.subset among
      obtain ⟨offset, whole⟩ := Series.shape_of_occurrence occurs
      rw [Series.start_of_ofSchedule sound aware made] at offset
      exact Timestamp.second_or_later offset whole (Series.begun_of_occurrence sound aware made occurs)
  skipped excluded t member := by
    have kept : t ∈ ((schedule.occurrences start query.after query.before false).filter fun t =>
        query.includeStart || t.instant != start.instant).items := by
      unfold answer at member
      dsimp only at member
      split at member
      · exact member
      · rw [Run.items_cut] at member
        exact List.mem_of_mem_take member
    rw [Run.items_filter, List.mem_filter, excluded, Bool.false_or, bne_iff_ne] at kept
    exact kept.2

/-- The first moment of a window is among those that answer the query for it, if any is
wanted and it is not the start that is to be passed over. -/
theorem Query.mem_answer_of_first {query : Query} {limits : Limits} {t : Timestamp}
    {rest : List Timestamp}
    (whole : (schedule.occurrences start query.after query.before false).items = t :: rest)
    (differs : t.instant ≠ start.instant)
    (wanted : ∀ n, query.limit schedule limits = some n → 0 < n) :
    t ∈ (query.answer schedule start limits).items := by
  have shown : (query.includeStart || t.instant != start.instant) = true :=
    Bool.or_eq_true_iff.mpr (.inr (bne_iff_ne.mpr differs))
  have kept : ((schedule.occurrences start query.after query.before false).filter fun t =>
      query.includeStart || t.instant != start.instant).items =
      t :: rest.filter fun t => query.includeStart || t.instant != start.instant := by
    rw [Run.items_filter, whole]
    exact List.filter_cons_of_pos shown
  unfold answer
  dsimp only
  split
  · rw [kept]
    exact List.mem_cons_self ..
  · rename_i n limited
    obtain ⟨more, isSucc⟩ := Nat.exists_eq_succ_of_ne_zero
      (Nat.ne_of_gt (Int.lt_toNat.mpr (wanted n limited) : 0 < n.toNat))
    rw [Run.items_cut, kept, isSucc]
    exact List.mem_cons_self ..

theorem Query.items_answer_of_none {query : Query} {limits : Limits} {n : Int}
    (limited : query.limit schedule limits = some n) (none : n ≤ 0) :
    (query.answer schedule start limits).items = [] := by
  unfold answer
  dsimp only
  rw [limited]
  dsimp only
  rw [Run.items_cut, Int.toNat_of_nonpos none, List.take_zero]

/-- A query without bounds gives the start without its fraction when the series does and
any occurrence is wanted. -/
theorem Query.isRoundedIn_answer_iff {query : Query} (sound : schedule.IsSound moment)
    (aware : start.aware = start) (made : Series.ofSchedule schedule start = .ok series)
    (limits : Limits) (after : query.after = .none) (before : query.before = .none) :
    start.IsRoundedIn (query.answer schedule start limits).items ↔
      start.IsRoundedIn series.occurrences.items ∧
        ∀ n, query.limit schedule limits = some n → 0 < n := by
  have second := start.instant_cutSeconds
  have inside : schedule.occurrences start query.after query.before false = series.occurrences := by
    rw [after, before]
    exact Schedule.occurrences_unbounded made
  constructor
  · rintro ⟨fraction, member⟩
    have part := (query.items_answer_sublist schedule start limits).map Timestamp.instant
    rw [inside] at part
    refine ⟨⟨fraction, part.subset member⟩, fun n limited => ?_⟩
    by_contra none
    rw [Query.items_answer_of_none limited (Int.not_lt.mp none)] at member
    cases member
  · rintro ⟨⟨fraction, member⟩, wanted⟩
    obtain ⟨t, occurs, same⟩ := List.mem_map.mp member
    have least (u : Timestamp) (other : u ∈ series.occurrences.items) : t.instant ≤ u.instant := by
      rw [same]
      exact Series.begun_of_occurrence sound aware made other
    obtain ⟨rest, whole⟩ := eq_cons_of_least series.occurrences_ascending occurs least
    rw [← inside] at whole
    -- the start itself has a fraction, so its second is not what is passed over
    have differs : t.instant ≠ start.instant := by omega
    exact ⟨fraction, List.mem_map.mpr ⟨t, Query.mem_answer_of_first whole differs wanted, same⟩⟩

end Answers

namespace Work

/-- Nothing that is asked of the expansion of a valid rule comes before the start, or, when
the start is not to be included, at the start, unless the start has a fraction of a second
and is given without it. All else that is found is after the start. Without bounds the
start is given in this way just when its second is an occurrence of the series. -/
theorem expansion_begins {r : Rule} {start : Datum} (valid : r.validate start = .ok ()) :
    ∃ moment schedule, readStart start = .ok moment ∧ r.toSchedule = .ok schedule ∧
      ∀ given limits before after, (limitsOr given).outcome before = (.ok limits, after) →
        ∀ query : Query, ∃ run,
          (generate given (.rule r) start query).outcome before = (.ok run, after) ∧
          (∀ t ∈ run.items, t.instant = moment.cutSeconds.instant ∨ moment.instant < t.instant) ∧
          ((∀ t ∈ run.items, moment.instant ≤ t.instant) ↔ ¬moment.IsRoundedIn run.items) ∧
          (query.includeStart = false →
            ((∀ t ∈ run.items, moment.instant < t.instant) ↔ ¬moment.IsRoundedIn run.items)) ∧
          ∀ series, Series.ofSchedule schedule moment = .ok series →
            query.after = .none → query.before = .none →
            (moment.IsRoundedIn run.items ↔ moment.IsRoundedIn series.occurrences.items ∧
              ∀ n, query.limit schedule limits = some n → 0 < n) := by
  obtain ⟨moment, schedule, begun, settles, checked⟩ := Rule.validate_ok_iff.mp valid
  have made := Rule.toSchedule_ok_iff.mpr settles
  have sound := settles.isSound checked
  have aware := aware_of_readStart begun
  refine ⟨moment, schedule, begun, made, fun given limits before after loaded query => ?_⟩
  have keeps := query.keepsStart sound aware limits
  exact ⟨_, outcome_generate begun made valid loaded query, keeps.each, keeps.notBefore_iff,
    keeps.after_iff, fun series bound noAfter noBefore =>
      Query.isRoundedIn_answer_iff sound aware bound limits noAfter noBefore⟩

/-- Every day at nine o'clock sharp. -/
def nineSharp : Rule :=
  { Rule.bare (.frequency .daily) with
    hours := [.int 9], minutes := [.int 0], seconds := [.int 0] }

/-- What the rule for nine o'clock sharp is bound to. -/
def nineSharpSeries : Series :=
  Series.bound (nineSharp.scheduleWith .daily .monday none []) pastNine (some [9], some [0], some [0])

/-- Half a second past nine, the first occurrence at nine sharp is already over. -/
theorem expansion_begins_nineSharp :
    nineSharp.validate (.moment pastNine) = .ok () ∧
      ∃ run, (generate (some {}) (.rule nineSharp) (.moment pastNine)
          { count := some 2, includeStart := false }).outcome {} = (.ok run, {}) ∧
        ¬∀ t ∈ run.items, pastNine.instant ≤ t.instant := by
  have valid : nineSharp.validate (.moment pastNine) = .ok () := rfl
  have today : nineSharpSeries.yearTable 739257 = .ok ⟨739252, [], []⟩ := rfl
  have given : nineSharpSeries.candidates [32400] [739257] = .next pastNine.cutSeconds fun _ => .done :=
    rfl
  obtain ⟨more, first⟩ : ∃ more, nineSharpSeries.occurrences = .next pastNine.cutSeconds more :=
    Series.occurrences_first nineSharpSeries.firstPeriod_inside today given rfl rfl rfl
  have rounded : pastNine.IsRoundedIn nineSharpSeries.occurrences.items := by
    refine ⟨by decide, ?_⟩
    rw [first]
    exact List.mem_cons_self ..
  obtain ⟨moment, schedule, begun, made, expanded⟩ := expansion_begins valid
  cases begun
  cases made
  obtain ⟨run, generated, _, notBefore, _, rounds⟩ := expanded (some {}) {} {} {} rfl
    { count := some 2, includeStart := false }
  refine ⟨valid, run, generated, fun all => notBefore.mp all ?_⟩
  refine (rounds nineSharpSeries rfl rfl rfl).mpr ⟨rounded, fun n limited => ?_⟩
  cases limited
  decide

end Work

end Recurrence
