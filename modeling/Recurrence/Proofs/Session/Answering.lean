import Recurrence.Proofs.Session.Progression
import Recurrence.Proofs.Session.WeekdayUnion
import Recurrence.Proofs.Session.Windows

namespace Recurrence

/-- What callers ask of the occurrences of a rule, where the bounds that are given are
moments. -/
structure Ask where
  after : Option Timestamp := none
  before : Option Timestamp := none
  count : Option Int := none
  includeStart : Bool := true

namespace Ask

/-- The query that asks so. -/
def query (ask : Ask) : Query where
  after := ask.after.elim .none .moment
  before := ask.before.elim .none .moment
  count := ask.count
  includeStart := ask.includeStart

/-- Whether an occurrence is wanted: strictly between the bounds, and not the start when that
is left out. -/
def wants (ask : Ask) (start t : Timestamp) : Bool :=
  t.isAfter ask.after false && t.isBefore ask.before false &&
    (ask.includeStart || t.instant != start.instant)

/-- Whether nothing at all bounds the occurrences of a rule from above. -/
def IsUnbounded (ask : Ask) (r : Rule) : Prop :=
  ask.count = none ∧ ask.before = none ∧ r.count = .none ∧ r.ends = .none

instance (ask : Ask) (r : Rule) : Decidable (ask.IsUnbounded r) :=
  inferInstanceAs (Decidable (_ ∧ _ ∧ _ ∧ _))

/-- The answer by its plain definition: of all occurrences of the rule the wanted ones, and of
these the first so many as are counted, none for a negative number, or as many as the limits
say where nothing else bounds them. -/
def answer (ask : Ask) (r : Rule) (start : Timestamp) (limits : Limits) (ts : List Timestamp) :
    List Timestamp :=
  let wanted := ts.filter (ask.wants start)
  match ask.count with
  | some n => wanted.take n.toNat
  | none => if ask.IsUnbounded r then wanted.take limits.maxOccurrences else wanted

variable {ask : Ask} {r : Rule} {schedule : Schedule} {series : Series} {start : Timestamp}
  {limits : Limits}

theorem length_answer_le (unbounded : ask.IsUnbounded r) (start : Timestamp) (limits : Limits)
    (ts : List Timestamp) : (ask.answer r start limits ts).length ≤ limits.maxOccurrences := by
  unfold answer
  rw [unbounded.1]
  dsimp only
  rw [if_pos unbounded, List.length_take]
  exact Nat.min_le_left ..

theorem toBound_query (ask : Ask) :
    ask.query.after.toBound = .ok ask.after ∧ ask.query.before.toBound = .ok ask.before := by
  obtain ⟨after, before, _, _⟩ := ask
  constructor
  · cases after <;> rfl
  · cases before <;> rfl

theorem isWellTyped_query (ask : Ask) : ask.query.IsWellTyped := by
  obtain ⟨after, before, _, _⟩ := ask
  constructor
  · cases after with
    | none => exact .inl rfl
    | some t => exact .inr ⟨t, rfl⟩
  · cases before with
    | none => exact .inl rfl
    | some t => exact .inr ⟨t, rfl⟩

/-- Whether anything bounds the occurrences can be seen on the schedule of the rule. -/
theorem isUnbounded_iff (settles : r.Settles schedule) (uncounted : ask.count = none) :
    ask.IsUnbounded r ↔ ask.query.before = .none ∧ schedule.count = .none ∧ schedule.ends = none := by
  have before : ask.before = none ↔ ask.query.before = .none := by
    unfold query
    cases ask.before <;> simp
  unfold IsUnbounded
  rw [before, settles.endless_iff, settles.sameCount]
  exact and_iff_right uncounted

/-- What passes the window of a query, and is not the start where that is left out, are the
wanted occurrences. -/
theorem items_wanted (ask : Ask) (bound : Series.ofSchedule schedule start = .ok series) :
    ((schedule.occurrences start ask.query.after ask.query.before false).filter fun t =>
        ask.includeStart || t.instant != start.instant).items =
      series.occurrences.items.filter (ask.wants start) := by
  obtain ⟨after, before⟩ := ask.toBound_query
  rw [Schedule.occurrences_of_bound bound after before, Run.items_filter, Series.items_window,
    List.filter_filter]
  exact List.filter_congr fun _ _ => Bool.and_comm ..

/-- The most occurrences that a query gets, as far as anything bounds them. -/
theorem limit_query (ask : Ask) (settles : r.Settles schedule) (limits : Limits) :
    ask.query.limit schedule limits =
      match ask.count with
      | some n => some n
      | none => if ask.IsUnbounded r then some (limits.maxOccurrences : Int) else none := by
  unfold Query.limit
  cases counted : ask.count with
  | some n =>
    have own : ask.query.count = some n := counted
    rw [own]
  | none =>
    have own : ask.query.count = none := counted
    simp only [own, isUnbounded_iff settles counted]

/-- A query finds what its plain definition says. -/
theorem items_answer (ask : Ask) (settles : r.Settles schedule)
    (bound : Series.ofSchedule schedule start = .ok series) (limits : Limits) :
    (ask.query.answer schedule start limits).items =
      ask.answer r start limits series.occurrences.items := by
  have wanted := ask.items_wanted bound
  unfold Query.answer answer
  rw [ask.limit_query settles]
  cases ask.count with
  | some n => exact (Run.items_cut ..).trans (congrArg _ wanted)
  | none =>
    by_cases unbounded : ask.IsUnbounded r
    · simp only [if_pos unbounded]
      exact (Run.items_cut ..).trans (congrArg _ wanted)
    · simp only [if_neg unbounded]
      exact wanted

end Ask

namespace Work

variable {given : Option Limits} {session : Session} {source : RuleSource} {r : Rule}
  {schedule : Schedule} {start : Datum} {moment : Timestamp} {limits : Limits} {ts : List Timestamp}

/-- A valid rule that is meant is searched as its schedule is, whatever the session does on
the way there. -/
theorem result_generate_of_means (means : source.Means given session r)
    (loaded : (limitsOr given).result session = .ok limits) (begun : readStart start = .ok moment)
    (made : r.toSchedule = .ok schedule) (valid : r.validate start = .ok ()) (query : Query) :
    (generate given source start query).result session = .ok (query.answer schedule moment limits) := by
  have known : (limitsOr given).outcome session = (.ok limits, ((limitsOr given).outcome session).2) :=
    Prod.ext loaded rfl
  obtain ⟨_, generated⟩ := outcome_generate_of_means means known begun made valid query
  exact result_of_outcome generated

/-- The occurrences of a valid rule that answer a query are those of its plain definition, as
long as the rule expands without an error. The skipped start does not use up the count, and
an expansion that nothing bounds from above never exceeds the maximum of the limits. -/
theorem generate_answers (means : source.Means given session r) (yields : r.Yields start ts)
    (begun : readStart start = .ok moment)
    (loaded : (limitsOr given).result session = .ok limits) :
    (ts.map Timestamp.instant).Pairwise (· < ·) ∧
    ∀ ask : Ask, ∃ run, (generate given source start ask.query).result session = .ok run ∧
      run.collect = .ok (ask.answer r moment limits ts) ∧
      (ask.IsUnbounded r → (ask.answer r moment limits ts).length ≤ limits.maxOccurrences) := by
  obtain ⟨valid, _, schedule, series, again, made, bound, complete, rfl⟩ := Rule.yields_iff.mp yields
  cases begun.symm.trans again
  have settles := Rule.toSchedule_ok_iff.mp made
  refine ⟨series.occurrences_ascending, fun ask => ?_⟩
  have generated := result_generate_of_means means loaded begun made valid ask.query
  have answered := Query.ending_answer ask.isWellTyped_query bound complete limits
  refine ⟨_, generated, ?_, fun unbounded => Ask.length_answer_le unbounded ..⟩
  rw [Run.collect_of_complete answered, ask.items_answer settles bound]

/-- Of every second day from the sixth of January 2025 on, the first two besides the start are
the eighth and the tenth. -/
theorem generate_answers_secondDays :
    ∃ ts run found, secondDays.Yields (.moment midnight) ts ∧
      (generate none (.rule secondDays) (.moment midnight)
        ({ count := some 2, includeStart := false } : Ask).query).result {} = .ok run ∧
      run.collect = .ok found ∧ found.map Timestamp.date = [⟨2025, 1, 8⟩, ⟨2025, 1, 10⟩] := by
  have valid : secondDays.validate (.moment midnight) = .ok () := rfl
  have made : secondDays.toSchedule = .ok (.plain .daily 2 .monday) := rfl
  obtain ⟨series, bound, progression⟩ := Schedule.occurrences_plain .daily .monday
    (by decide : 1 ≤ 2) (by decide) (rfl : midnight.aware.cutSeconds = midnight)
  have means : RuleSource.Means none {} (.rule secondDays) secondDays := rfl
  obtain ⟨_, _, _, own, _, again, started, complete⟩ := gives_of_daily means valid made rfl
  cases own
  cases made.symm.trans again
  cases bound.symm.trans started
  have yields : secondDays.Yields (.moment midnight) series.occurrences.items :=
    Rule.yields_iff.mpr ⟨valid, midnight, _, series, rfl, made, bound, complete, rfl⟩
  have begun : readStart (.moment midnight) = .ok midnight := rfl
  have loaded : (limitsOr none).result {} = .ok {} := rfl
  obtain ⟨_, answers⟩ := generate_answers means yields begun loaded
  obtain ⟨run, generated, collected, _⟩ := answers { count := some 2, includeStart := false }
  refine ⟨_, run, _, yields, generated, collected, ?_⟩
  have shown : (midnight.later? .daily (2 * 2)).isSome = true := by decide +kernel
  obtain ⟨rest, whole⟩ := progression.exists_eq_append shown
  have first : (((List.range (2 + 1)).filterMap fun n => midnight.later? .daily (n * 2)).filter
      (({ count := some 2, includeStart := false } : Ask).wants midnight)).map Timestamp.date =
        [⟨2025, 1, 8⟩, ⟨2025, 1, 10⟩] := by decide +kernel
  unfold Ask.answer
  dsimp only
  rw [whole, List.filter_append, List.map_take, List.map_append, first]
  rfl

end Work

end Recurrence
