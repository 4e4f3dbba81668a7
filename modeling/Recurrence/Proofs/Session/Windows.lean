import Recurrence.Proofs.Session.Combining

namespace Recurrence

/-- Without more conditions than its two bounds, a query is answered by what is between
them. -/
theorem Query.collect_answer_of_window {schedule : Schedule} {moment : Timestamp} {series : Series}
    (bound : Series.ofSchedule schedule moment = .ok series)
    (complete : series.occurrences.ending = none) (a b : Timestamp) (limits : Limits) :
    (({ after := .moment a, before := .moment b } : Query).answer schedule moment limits).collect =
      .ok (series.occurrences.items.filter fun t =>
        a.instant < t.instant && t.instant < b.instant) := by
  have inside := Series.ending_window complete (some a) (some b) false
  have answer : ({ after := .moment a, before := .moment b } : Query).answer schedule moment limits =
      (series.window (some a) (some b) false).filter fun _ => true := by
    unfold Query.answer
    rw [Schedule.occurrences_of_bound bound rfl rfl]
    rfl
  rw [answer, Run.collect_of_complete (by rw [Run.ending_filter, inside]), Run.items_filter,
    List.filter_true, Series.items_window]
  rfl

namespace Work

variable {given : Option Limits} {source : RuleSource} {start : Datum} {moment : Timestamp}
  {session : Session} {series : Series}

/-- What a walk meets on so many steps along the given moments: one after the other, and
then nothing more. -/
def steps (ahead : List Timestamp) (n : Nat) : List (Option Timestamp) :=
  (ahead.take n).map some ++ List.replicate (n - ahead.length) none

theorem steps_zero (ahead : List Timestamp) : steps ahead 0 = [] := by
  unfold steps
  rw [List.take_zero, Nat.zero_sub]
  rfl

theorem steps_nil_succ (n : Nat) : steps [] (n + 1) = none :: steps [] n := by
  unfold steps
  rw [List.take_nil, List.take_nil]
  rfl

theorem steps_cons_succ (t : Timestamp) (ahead : List Timestamp) (n : Nat) :
    steps (t :: ahead) (n + 1) = some t :: steps ahead n := by
  unfold steps
  rw [List.length_cons, Nat.succ_sub_succ]
  rfl

section Helpers

variable (begun : readStart start = .ok moment) (gives : source.Gives given session moment series)
include begun gives

theorem outcome_between (a b : Timestamp) (inclusive : Bool) :
    ∃ after, (between given source start (.moment a) (.moment b) inclusive).outcome session =
      (.ok (series.occurrences.items.filter fun t =>
        precedes inclusive a.instant t.instant && precedes inclusive t.instant b.instant), after) := by
  obtain ⟨schedule, after, resolved, bound, _⟩ := outcome_resolve_of_gives begun gives
  have expanded : schedule.expand moment (.moment a) (.moment b) inclusive none =
      .ok (series.window (some a) (some b) inclusive).items := by
    have complete := Series.ending_window gives.complete (some a) (some b) inclusive
    unfold Schedule.expand
    rw [Schedule.occurrences_of_bound bound rfl rfl]
    exact Run.collect_of_complete complete
  unfold between
  rw [outcome_bind resolved]
  dsimp only
  rw [expanded, Series.items_window]
  exact ⟨after, rfl⟩

theorem outcome_next (a : Timestamp) (inclusive : Bool) :
    ∃ after, (next given source start (.moment a) inclusive).outcome session =
        (.ok (series.occurrences.items.filter fun t =>
          precedes inclusive a.instant t.instant).head?, after) ∧
      source.Gives given after moment series := by
  obtain ⟨schedule, after, resolved, bound, kept⟩ := outcome_resolve_of_gives begun gives
  have found : schedule.occurrenceAfter moment (.moment a) inclusive =
      .ok (series.occurrences.items.filter fun t => t.isPast a inclusive).head? := by
    unfold Schedule.occurrenceAfter
    rw [bound]
    exact Run.find?_of_complete gives.complete _
  unfold next
  rw [outcome_bind resolved]
  dsimp only
  rw [found]
  simp only [Timestamp.isPast_eq]
  exact ⟨after, rfl, kept _ _ gives⟩

theorem outcome_previous (b : Timestamp) (inclusive : Bool) :
    ∃ after, (previous given source start (.moment b) inclusive).outcome session =
      (.ok (series.occurrences.items.filter fun t =>
        precedes inclusive t.instant b.instant).getLast?, after) := by
  obtain ⟨schedule, after, resolved, bound, _⟩ := outcome_resolve_of_gives begun gives
  have closed := Series.precedes_closed (s := series) (fun _ => true) inclusive b.instant
  rw [List.filter_true] at closed
  have found : schedule.occurrenceBefore moment (.moment b) inclusive =
      .ok (series.occurrences.items.filter fun t => precedes inclusive t.instant b.instant).getLast? := by
    unfold Schedule.occurrenceBefore
    rw [bound]
    change series.occurrences.lastWhile (fun t => b.isPast t inclusive) none = _
    simp only [Timestamp.isPast_eq]
    rw [Run.lastWhile_of_complete gives.complete, takeWhile_eq_filter closed, Option.or_none]
  unfold previous
  rw [outcome_bind resolved]
  dsimp only
  rw [found]
  exact ⟨after, rfl⟩

/-- From one occurrence to the one after it, and back again. -/
theorem result_of_neighbours {front rest : List Timestamp} {o n : Timestamp}
    (whole : series.occurrences.items = front ++ o :: n :: rest) :
    (next given source start (.moment o) false).result session = .ok (some n) ∧
      (previous given source start (.moment n) false).result session = .ok (some o) := by
  have sorted := series.occurrences_ascending
  obtain ⟨_, forward, _⟩ := outcome_next begun gives o false
  obtain ⟨_, backward⟩ := outcome_previous begun gives n false
  rw [whole] at sorted forward backward
  refine ⟨(result_of_outcome forward).trans ?_, (result_of_outcome backward).trans ?_⟩
  · exact congrArg (fun ts : List Timestamp => Except.ok ts.head?) (filter_after sorted)
  · rw [List.append_cons] at sorted ⊢
    refine (congrArg (fun ts : List Timestamp => Except.ok ts.getLast?) (filter_before sorted)).trans ?_
    rw [List.getLast?_concat]

theorem outcome_generate_of_gives {limits : Limits}
    (loaded : (limitsOr given).result session = .ok limits) (query : Query) :
    ∃ schedule after, (generate given source start query).outcome session =
        (.ok (query.answer schedule moment limits), after) ∧
      Series.ofSchedule schedule moment = .ok series := by
  have known : (limitsOr given).outcome session =
      (.ok limits, ((limitsOr given).outcome session).2) := Prod.ext loaded rfl
  obtain ⟨r, schedule, means, valid, made, bound, _⟩ := gives
  obtain ⟨after, generated⟩ := outcome_generate_of_means means known begun made
    ((Rule.validate_iff_of_readStart begun).mp valid) query
  exact ⟨schedule, after, generated, bound⟩

theorem outcome_walk (a : Timestamp) (n : Nat) :
    ∃ after, (walk given source start (.moment a) (List.replicate n .forward)).outcome session =
      (.ok (steps (series.occurrences.items.filter fun t => a.instant < t.instant) n), after) := by
  induction n generalizing a session with
  | zero => exact ⟨session, by rw [steps_zero]; rfl⟩
  | succ n ih =>
    obtain ⟨middle, stepped, kept⟩ := outcome_next begun gives a false
    simp only [precedes, Bool.false_eq_true, if_false] at stepped
    rw [List.replicate_succ, walk, outcome_bind stepped]
    cases ahead : series.occurrences.items.filter fun t => decide (a.instant < t.instant) with
    | nil =>
      obtain ⟨after, walked⟩ := ih kept a
      rw [ahead] at walked
      rw [steps_nil_succ]
      exact ⟨after, outcome_bind walked⟩
    | cons o rest =>
      obtain ⟨after, walked⟩ := ih kept o
      rw [filter_after_of_filter series.occurrences_ascending ahead] at walked
      rw [steps_cons_succ]
      exact ⟨after, outcome_bind walked⟩

end Helpers

/-- What the helpers for windows find when the occurrences of a source, from a start on,
are the given ones. -/
structure ShowWindows (given : Option Limits) (source : RuleSource) (start : Datum)
    (session : Session) (occurrences : List Timestamp) : Prop where
  ascending : (occurrences.map Timestamp.instant).Pairwise (· < ·)
  between : ∀ (a b : Timestamp) inclusive,
    (between given source start (.moment a) (.moment b) inclusive).result session =
      .ok (occurrences.filter fun t =>
        precedes inclusive a.instant t.instant && precedes inclusive t.instant b.instant)
  generate : ∀ (a b : Timestamp) limits, (limitsOr given).result session = .ok limits →
    ∃ run, (generate given source start { after := .moment a, before := .moment b }).result session =
        .ok run ∧
      run.collect = .ok (occurrences.filter fun t => a.instant < t.instant && t.instant < b.instant)
  next : ∀ (a : Timestamp) inclusive, ∃ found,
    (next given source start (.moment a) inclusive).result session = .ok found ∧
      IsFirst Timestamp.instant occurrences (fun t => precedes inclusive a.instant t.instant) found
  previous : ∀ (b : Timestamp) inclusive, ∃ found,
    (previous given source start (.moment b) inclusive).result session = .ok found ∧
      IsLast Timestamp.instant occurrences (fun t => precedes inclusive t.instant b.instant) found
  neighbours : ∀ front o n rest, occurrences = front ++ o :: n :: rest →
    (Work.next given source start (.moment o) false).result session = .ok (some n) ∧
      (Work.previous given source start (.moment n) false).result session = .ok (some o)
  walk : ∀ (a : Timestamp) n,
    (walk given source start (.moment a) (List.replicate n .forward)).result session =
      .ok (steps (occurrences.filter fun t => a.instant < t.instant) n)
  split : ∀ a m b : Timestamp, a.instant < m.instant → m.instant < b.instant → ∃ first second,
    (Work.between given source start (.moment a) (.moment m) false).result session = .ok first ∧
      (Work.between given source start (.moment m) (.moment b) false).result session = .ok second ∧
      (Work.between given source start (.moment a) (.moment b) false).result session =
        .ok (first ++ (occurrences.filter fun t => t.instant = m.instant) ++ second)

/-- The helpers for windows are views of one series: whatever they are asked, they find
parts of its occurrences. -/
theorem windows_of_gives (begun : readStart start = .ok moment)
    (gives : source.Gives given session moment series) :
    ShowWindows given source start session series.occurrences.items := by
  have sorted := series.occurrences_ascending
  have exclusive (a m : Timestamp) :
      (Work.between given source start (.moment a) (.moment m) false).result session =
        .ok (series.occurrences.items.filter fun t =>
          decide (a.instant < t.instant) && decide (t.instant < m.instant)) := by
    obtain ⟨_, done⟩ := outcome_between begun gives a m false
    exact result_of_outcome done
  constructor
  case ascending => exact sorted
  case between =>
    intro a b inclusive
    obtain ⟨_, done⟩ := outcome_between begun gives a b inclusive
    exact result_of_outcome done
  case generate =>
    intro a b limits loaded
    obtain ⟨schedule, after, done, bound⟩ := outcome_generate_of_gives begun gives loaded
      { after := .moment a, before := .moment b }
    exact ⟨_, result_of_outcome done, Query.collect_answer_of_window bound gives.complete a b limits⟩
  case next =>
    intro a inclusive
    obtain ⟨_, done, _⟩ := outcome_next begun gives a inclusive
    exact ⟨_, result_of_outcome done, isFirst_head? sorted _⟩
  case previous =>
    intro b inclusive
    obtain ⟨_, done⟩ := outcome_previous begun gives b inclusive
    exact ⟨_, result_of_outcome done, isLast_getLast? sorted _⟩
  case neighbours =>
    intro front o n rest whole
    exact result_of_neighbours begun gives whole
  case walk =>
    intro a n
    obtain ⟨_, done⟩ := outcome_walk begun gives a n
    exact result_of_outcome done
  case split =>
    intro a m b after before
    refine ⟨_, _, exclusive a m, exclusive m b, ?_⟩
    rw [exclusive a b, filter_between_split sorted after before]

theorem windows_of_secondDays :
    ∃ series, readStart (.moment noon) = .ok noon.aware ∧
      RuleSource.Gives none {} noon.aware (.rule secondDays) series ∧
      ShowWindows none (.rule secondDays) (.moment noon) {} series.occurrences.items := by
  have begun : readStart (.moment noon) = .ok noon.aware := rfl
  have own : RuleSource.Means none {} (.rule secondDays) secondDays := rfl
  obtain ⟨series, gives⟩ : ∃ series, RuleSource.Gives none {} noon.aware (.rule secondDays) series :=
    gives_of_daily own rfl rfl rfl
  exact ⟨series, begun, gives, windows_of_gives begun gives⟩

end Work

end Recurrence
