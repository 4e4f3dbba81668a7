import Recurrence.Proofs.Combination.Difference
import Recurrence.Proofs.Session.Expansion
import Recurrence.Proofs.Session.Loading
import Recurrence.Proofs.Session.Reading

namespace Recurrence

namespace RuleSource

/-- Whether a source stands for a rule: itself, or what its text says under the
limits that are given or those of the session. -/
def Means (given : Option Limits) (session : Session) (source : RuleSource) (r : Rule) : Prop :=
  match source with
  | .rule own => own = r
  | .text t => ∃ limits, ((Work.limitsOr given).outcome session).1 = .ok limits ∧
      Rule.read limits t = .ok r

/-- Under the limits that are loaded a source means the same as before they were. -/
theorem Means.of_limitsOr {given : Option Limits} {limits : Limits} {before middle : Session}
    {source : RuleSource} {r : Rule} (means : source.Means given before r)
    (loaded : (Work.limitsOr given).outcome before = (.ok limits, middle)) :
    source.Means (some limits) middle r := by
  cases source with
  | rule own => exact means
  | text t =>
    obtain ⟨known, same, read⟩ := means
    rw [loaded] at same
    cases same
    exact ⟨limits, rfl, read⟩

/-- Whether a source stands for a rule that is valid from a moment on and, bound to
it, is the series, none of whose occurrences is an error. -/
def Gives (given : Option Limits) (session : Session) (moment : Timestamp) (source : RuleSource)
    (series : Series) : Prop :=
  ∃ r schedule, source.Means given session r ∧ r.validate (.moment moment) = .ok () ∧
    r.toSchedule = .ok schedule ∧ Series.ofSchedule schedule moment = .ok series ∧
    series.occurrences.ending = none

theorem Gives.complete {given : Option Limits} {session : Session} {moment : Timestamp}
    {source : RuleSource} {series : Series} (gives : source.Gives given session moment series) :
    series.occurrences.ending = none := by
  obtain ⟨_, _, _, _, _, _, complete⟩ := gives
  exact complete

end RuleSource

namespace Work

variable {given : Option Limits} {before after session : Session} {moment : Timestamp}

/-- A source can be read, and then every other source still means the same. -/
theorem outcome_ruleOf {source : RuleSource} {r : Rule} (means : source.Means given before r) :
    ∃ after, (ruleOf given source).outcome before = (.ok r, after) ∧
      ∀ other rule, RuleSource.Means given before other rule → other.Means given after rule := by
  cases source with
  | rule own =>
    cases means
    exact ⟨before, rfl, fun _ _ same => same⟩
  | text t =>
    obtain ⟨limits, known, read⟩ := means
    have loaded : (limitsOr given).outcome before =
        (.ok limits, ((limitsOr given).outcome before).2) := Prod.ext known rfl
    refine ⟨_, outcome_readRule_ok loaded read, fun other rule same => ?_⟩
    cases other with
    | rule own => exact same
    | text u =>
      obtain ⟨own, knownOwn, readOwn⟩ := same
      cases known.symm.trans knownOwn
      exact ⟨limits, limitsOr_kept loaded _, readOwn⟩

theorem outcome_resolve_of_gives {source : RuleSource} {series : Series} {start : Datum}
    (begun : readStart start = .ok moment) (gives : source.Gives given before moment series) :
    ∃ schedule after, (resolve given source start).outcome before = (.ok (schedule, moment), after) ∧
      Series.ofSchedule schedule moment = .ok series ∧
      ∀ other taken, RuleSource.Gives given before moment other taken →
        other.Gives given after moment taken := by
  obtain ⟨r, schedule, means, valid, made, bound, _⟩ := gives
  obtain ⟨after, found, kept⟩ := outcome_ruleOf means
  refine ⟨schedule, after, outcome_resolve_of_ruleOf found begun made valid, bound, ?_⟩
  rintro other taken ⟨rule, own, same, rest⟩
  exact ⟨rule, own, kept other rule same, rest⟩

/-- A source of a valid rule answers queries with the occurrences of its schedule. -/
theorem outcome_generate_of_means {source : RuleSource} {r : Rule} {limits : Limits}
    {schedule : Schedule} {start : Datum} (means : source.Means given before r)
    (loaded : (limitsOr given).outcome before = (.ok limits, after))
    (begun : readStart start = .ok moment) (made : r.toSchedule = .ok schedule)
    (valid : r.validate start = .ok ()) (query : Query) :
    ∃ later, (generate given source start query).outcome before =
      (.ok (query.answer schedule moment limits), later) := by
  obtain ⟨later, found, _⟩ := outcome_ruleOf (means.of_limitsOr loaded)
  exact ⟨later, outcome_generate_of_ruleOf loaded found begun made valid query⟩

/-- Sources that give series are all bound to them. -/
theorem outcome_bindAll {taken : RuleSource → Series} {sources : List RuleSource} {start : Datum}
    (begun : readStart start = .ok moment)
    (gives : ∀ source ∈ sources, source.Gives given before moment (taken source)) :
    ∃ after, (bindAll given start sources).outcome before = (.ok (sources.map taken), after) := by
  induction sources generalizing before with
  | nil => exact ⟨before, rfl⟩
  | cons source sources ih =>
    obtain ⟨first, later⟩ := List.forall_mem_cons.mp gives
    obtain ⟨schedule, between, resolved, bound, kept⟩ := outcome_resolve_of_gives begun first
    obtain ⟨after, rest⟩ := ih fun other member => kept other _ (later other member)
    refine ⟨after, ?_⟩
    rw [bindAll, outcome_bind resolved]
    dsimp only
    rw [bound, outcome_bind (outcome_lift between), outcome_bind rest]
    rfl

theorem mapM_aware (dates : List Timestamp) :
    ((dates.map Datum.moment).mapM fun d => d.toMoment.map Timestamp.aware) =
      .ok (dates.map Timestamp.aware) := by
  rw [Outcome.mapM_eq_ok_iff, List.forall₂_map_left_iff, List.forall₂_map_right_iff,
    List.forall₂_same]
  exact fun _ _ => rfl

/-- Sources that give series, and moments, can be combined. -/
theorem outcome_combine {source : RuleSource} {series : Series} {excluded : List RuleSource}
    {taken : RuleSource → Series} {start : Datum} (begun : readStart start = .ok moment)
    (gives : source.Gives given before moment series)
    (givesExcluded : ∀ other ∈ excluded, other.Gives given before moment (taken other))
    (dates excludedDates : List Timestamp) :
    ∃ after, (combine given source start (dates.map .moment) excluded
        (excludedDates.map .moment)).outcome before =
      (.ok ⟨series, dates.map Timestamp.aware, excluded.map taken,
        excludedDates.map Timestamp.aware⟩, after) := by
  obtain ⟨schedule, between, resolved, bound, kept⟩ := outcome_resolve_of_gives begun gives
  obtain ⟨after, rest⟩ := outcome_bindAll (readStart_of_readStart begun)
    fun other member => kept other _ (givesExcluded other member)
  refine ⟨after, ?_⟩
  rw [combine, outcome_bind resolved]
  dsimp only
  rw [bound, outcome_bind (outcome_lift between), outcome_bind rest, mapM_aware,
    outcome_bind (outcome_lift after), mapM_aware, outcome_bind (outcome_lift after)]
  rfl

/-- A combination gives a difference of sets: in order and each once, the instants
that are an occurrence of the rule or one of the dates, and neither an occurrence
of an excluded rule nor one of the excluded dates, where a clock with no known
distance shows UTC. How the dates and the excluded are ordered or repeated does
not show. -/
theorem combine_difference {source : RuleSource} {series : Series} {start : Datum}
    {taken : RuleSource → Series} {excluded : List RuleSource}
    (begun : readStart start = .ok moment) (gives : source.Gives given session moment series)
    (givesExcluded : ∀ other ∈ excluded, other.Gives given session moment (taken other))
    (dates excludedDates : List Timestamp) :
    ∃ instants : List Int, instants.Pairwise (· < ·) ∧
      (∀ i, i ∈ instants ↔
        (i ∈ series.occurrences.instants ∨ ∃ t ∈ dates, t.instant = i) ∧
          (∀ other ∈ excluded, i ∉ (taken other).occurrences.instants) ∧
          ∀ t ∈ excludedDates, t.instant ≠ i) ∧
      ∀ (dates' : List Timestamp) (excluded' : List RuleSource) (excludedDates' : List Timestamp),
        (∀ t, t ∈ dates' ↔ t ∈ dates) → (∀ other, other ∈ excluded' ↔ other ∈ excluded) →
        (∀ t, t ∈ excludedDates' ↔ t ∈ excludedDates) →
        ∃ combination after, (combine given source start (dates'.map .moment) excluded'
            (excludedDates'.map .moment)).outcome session = (.ok combination, after) ∧
          combination.occurrences.ending = none ∧
          combination.occurrences.instants = instants := by
  have found (dates' : List Timestamp) (excluded' : List RuleSource)
      (excludedDates' : List Timestamp) (sameExcluded : ∀ other, other ∈ excluded' ↔ other ∈ excluded) :=
    Combination.instants_occurrences (c := ⟨series, dates'.map Timestamp.aware, excluded'.map taken,
        excludedDates'.map Timestamp.aware⟩)
      ⟨gives.complete, List.forall_mem_map.mpr fun other member =>
        (givesExcluded other ((sameExcluded other).mp member)).complete⟩
  have instants_aware (ts : List Timestamp) (i : Int) :
      i ∈ (ts.map Timestamp.aware).map Timestamp.instant ↔ ∃ t ∈ ts, t.instant = i := by
    rw [List.map_map]
    exact List.mem_map
  obtain ⟨_, ascending, members⟩ := found dates excluded excludedDates fun _ => Iff.rfl
  refine ⟨_, ascending, fun i => ?_, ?_⟩
  · rw [members]
    simp only [instants_aware, List.forall_mem_map, not_exists, not_and, ne_eq]
  · intro dates' excluded' excludedDates' sameDates sameExcluded sameExcludedDates
    obtain ⟨after, combined⟩ := outcome_combine begun gives
      (fun other member => givesExcluded other ((sameExcluded other).mp member)) dates' excludedDates'
    obtain ⟨ending, ascending', members'⟩ := found dates' excluded' excludedDates' sameExcluded
    refine ⟨_, after, combined, ending, ascending'.eq_of_mem_iff ascending fun i => ?_⟩
    rw [members, members']
    simp only [instants_aware, List.forall_mem_map, sameDates, sameExcluded, sameExcludedDates]

/-- A source of a valid daily rule gives a series. -/
theorem gives_of_daily {source : RuleSource} {r : Rule} {schedule : Schedule}
    (means : source.Means given session r) (valid : r.validate (.moment moment) = .ok ())
    (made : r.toSchedule = .ok schedule) (daily : schedule.frequency = .daily) :
    ∃ series, source.Gives given session moment series := by
  obtain ⟨start, settled, _, settles, checked⟩ := Rule.validate_ok_iff.mp valid
  cases made.symm.trans (Rule.toSchedule_ok_iff.mpr settles)
  have sound := settles.isSound checked
  have fits : ∃ series, Series.ofSchedule schedule moment = .ok series ∧
      series.occurrences.ending = none := by
    rw [Schedule.complete_iff sound]
    refine ⟨fun within => ?_, fun series bound _ => ?_⟩
    · rw [daily] at within
      cases within
    · obtain ⟨clock, _, rfl⟩ := Series.exists_clock_of_ofSchedule sound bound
      have isDaily : (Series.bound schedule moment clock).frequency = .daily :=
        (Series.bound_frequency ..).trans daily
      refine ⟨fun asks => ?_, fun overruns => ?_, fun overruns => ?_⟩
      · exact nomatch isDaily.symm.trans asks.1
      · exact nomatch isDaily.symm.trans overruns.1
      · exact nomatch isDaily.symm.trans overruns.1
  obtain ⟨series, bound, complete⟩ := fits
  exact ⟨series, r, schedule, means, valid, made, bound, complete⟩

/-- Every second day. -/
def secondDays : Rule := { Rule.bare (.frequency .daily) with interval := .int 2 }

/-- Noon on the sixth of January 2025, on a clock with no known distance from UTC. -/
def noon : Timestamp where
  seconds := 63871761600
  micros := 0
  offset := none
  seconds_lt := by decide
  micros_lt := Timestamp.zero_micros_lt

theorem combine_difference_daily :
    ∃ series others, readStart (.moment midnight) = .ok midnight ∧
      RuleSource.Gives (some {}) {} midnight (.text "FREQ=DAILY".toList) series ∧
      RuleSource.Gives (some {}) {} midnight (.rule secondDays) others ∧
      ∃ combination after, (combine (some {}) (.text "FREQ=DAILY".toList) (.moment midnight)
          [.moment noon, .moment noon] [.rule secondDays] [.moment midnight]).outcome {} =
        (.ok combination, after) ∧
      combination.occurrences.instants.Pairwise (· < ·) ∧
      ∀ i, i ∈ combination.occurrences.instants ↔
        (i ∈ series.occurrences.instants ∨ i = noon.instant) ∧
          i ∉ others.occurrences.instants ∧ i ≠ midnight.instant := by
  have begun : readStart (.moment midnight) = .ok midnight := rfl
  have read : RuleSource.Means (some {}) {} (.text "FREQ=DAILY".toList)
      (Rule.bare (.frequency .daily)) := ⟨{}, rfl, by cbv⟩
  have own : RuleSource.Means (some {}) {} (.rule secondDays) secondDays := rfl
  obtain ⟨series, gives⟩ : ∃ series, RuleSource.Gives (some {}) {} midnight
      (.text "FREQ=DAILY".toList) series := gives_of_daily read rfl rfl rfl
  obtain ⟨others, givesOthers⟩ : ∃ others, RuleSource.Gives (some {}) {} midnight
      (.rule secondDays) others := gives_of_daily own rfl rfl rfl
  have givesExcluded : ∀ other ∈ [RuleSource.rule secondDays],
      other.Gives (some {}) {} midnight others := by
    simpa using givesOthers
  obtain ⟨instants, ascending, members, combined⟩ :=
    combine_difference begun gives givesExcluded [noon, noon] [midnight]
  obtain ⟨combination, after, done, _, rfl⟩ := combined [noon, noon] [.rule secondDays] [midnight]
    (fun _ => Iff.rfl) (fun _ => Iff.rfl) fun _ => Iff.rfl
  refine ⟨series, others, begun, gives, givesOthers, combination, after, done, ascending, fun i => ?_⟩
  rw [members]
  simp [eq_comm]

end Work

end Recurrence
