import Recurrence.Proofs.Session.Answering

namespace Recurrence

/-- A search that is cut gives the first so many items as soon as it goes on to one more, and
comes otherwise to what the whole search comes to. -/
theorem Run.collect_cut {ε α : Type} (n : Nat) (run : Run ε α) :
    (run.cut n).collect = if n < run.items.length then .ok (run.items.take n) else run.collect := by
  rw [collect_eq, ending_cut, items_cut]
  by_cases more : n < run.items.length
  · rw [if_pos more, if_neg (Nat.not_le.mpr more)]
  · have few := Nat.not_lt.mp more
    rw [if_neg more, if_pos few, List.take_of_length_le few, collect_eq]

theorem Run.collect_cut_failed {ε α : Type} (n : Nat) (error : ε) :
    ((failed error : Run ε α).cut n).collect = .error error := by
  cases n <;> rfl

namespace Series

variable {s : Series} {after before : Option Timestamp} {inclusive : Bool} {n : Nat}

/-- Whether the series comes to an occurrence behind a window before any error. -/
def GoesBeyond (s : Series) (after before : Option Timestamp) (inclusive : Bool) : Prop :=
  ∃ t ∈ s.occurrences.items, t.isAfter after inclusive = true ∧ t.isBefore before inclusive = false

/-- What a limit does to the occurrences of a series that are wanted: they are given up to the
limit only when the search comes to one too many, goes beyond the window, or ends without an
error. Otherwise its error is all there is. -/
structure LooksAhead (s : Series) (wanted : List Timestamp) (beyond : Prop) (n : Nat)
    (answer : Except Fault (List Timestamp)) : Prop where
  given : n < wanted.length ∨ beyond ∨ s.occurrences.ending = none → answer = .ok (wanted.take n)
  failed : ∀ fault, s.occurrences.ending = some fault → wanted.length ≤ n → ¬beyond →
    answer = .error fault

/-- A window ends as its series does, unless the series goes beyond it. -/
theorem ending_window_of (s : Series) (after before : Option Timestamp) (inclusive : Bool) :
    (s.GoesBeyond after before inclusive → (s.window after before inclusive).ending = none) ∧
      (¬s.GoesBeyond after before inclusive →
        (s.window after before inclusive).ending = s.occurrences.ending) := by
  have within : (s.occurrences.items.filter (·.isAfter after inclusive)).all
      (·.isBefore before inclusive) = true ↔ ¬s.GoesBeyond after before inclusive := by
    simp only [List.all_eq_true, List.mem_filter, GoesBeyond, not_exists, not_and, Bool.not_eq_false,
      and_imp]
  rw [ending_window_eq]
  exact ⟨fun beyond => if_neg (mt within.mp (not_not.mpr beyond)), fun inside =>
    if_pos (within.mpr inside)⟩

/-- A search that ends as a window does is limited with one look ahead. -/
theorem looksAhead_cut {run : Run Fault Timestamp}
    (same : run.ending = (s.window after before inclusive).ending) (n : Nat) :
    s.LooksAhead run.items (s.GoesBeyond after before inclusive) n (run.cut n).collect := by
  obtain ⟨quiet, onward⟩ := s.ending_window_of after before inclusive
  rw [Run.collect_cut]
  constructor
  case given =>
    intro stops
    by_cases more : n < run.items.length
    · rw [if_pos more]
    · have complete : run.ending = none := by
        rw [same]
        rcases stops with found | beyond | complete
        · exact absurd found more
        · exact quiet beyond
        · exact ending_window complete after before inclusive
      rw [if_neg more, Run.collect_of_complete complete, List.take_of_length_le (Nat.not_lt.mp more)]
  case failed =>
    intro fault failed few inside
    rw [if_neg (Nat.not_lt.mpr few), Run.collect_eq, same, onward inside, failed]

end Series

/-- A schedule that cannot be bound to its start has no occurrences but the error. -/
theorem Schedule.occurrences_of_unbound {schedule : Schedule} {start : Timestamp} {fault : Fault}
    (unbound : Series.ofSchedule schedule start = .error fault) (after before : Datum)
    (inclusive : Bool) : schedule.occurrences start after before inclusive = .failed fault := by
  unfold occurrences
  rw [unbound]
  rfl

namespace Ask

/-- The same with a limit. -/
def limited (ask : Ask) (n : Nat) : Ask := { ask with count := some n }

variable {schedule : Schedule} {start : Timestamp} {series : Series} {fault : Fault}

theorem answer_limited (ask : Ask) (n : Nat) (schedule : Schedule) (start : Timestamp)
    (limits : Limits) :
    (ask.limited n).query.answer schedule start limits =
      ((schedule.occurrences start ask.query.after ask.query.before false).filter fun t =>
        ask.includeStart || t.instant != start.instant).cut n := rfl

theorem looksAhead_expand (ask : Ask) (bound : Series.ofSchedule schedule start = .ok series)
    (inclusive : Bool) (n : Nat) :
    series.LooksAhead
      (series.occurrences.items.filter fun t =>
        t.isAfter ask.after inclusive && t.isBefore ask.before inclusive)
      (series.GoesBeyond ask.after ask.before inclusive) n
      (schedule.expand start ask.query.after ask.query.before inclusive (some n)) := by
  obtain ⟨after, before⟩ := ask.toBound_query
  rw [← Series.items_window]
  unfold Schedule.expand
  rw [Schedule.occurrences_of_bound bound after before]
  exact Series.looksAhead_cut rfl n

theorem looksAhead_answer (ask : Ask) (bound : Series.ofSchedule schedule start = .ok series)
    (n : Nat) (limits : Limits) :
    series.LooksAhead (series.occurrences.items.filter (ask.wants start))
      (series.GoesBeyond ask.after ask.before false) n
      ((ask.limited n).query.answer schedule start limits).collect := by
  obtain ⟨after, before⟩ := ask.toBound_query
  rw [← ask.items_wanted bound, answer_limited]
  refine Series.looksAhead_cut ?_ n
  rw [Run.ending_filter, Schedule.occurrences_of_bound bound after before]

end Ask

namespace Work

/-- A limit stops a search only one occurrence too late. The list of the first so many
occurrences in a window, and that of a limited query, are given when the search comes to one
occurrence more, goes beyond the window or ends without an error. Otherwise the error that
the series ends with is all there is, although a limited query has met all occurrences that
it gives before. -/
theorem limit_looksAhead (ask : Ask) (n : Nat) (schedule : Schedule) (moment : Timestamp) :
    (∀ inclusive,
      match Series.ofSchedule schedule moment with
      | .error fault =>
        schedule.expand moment ask.query.after ask.query.before inclusive (some n) = .error fault
      | .ok series =>
        series.LooksAhead
          (series.occurrences.items.filter fun t =>
            t.isAfter ask.after inclusive && t.isBefore ask.before inclusive)
          (series.GoesBeyond ask.after ask.before inclusive) n
          (schedule.expand moment ask.query.after ask.query.before inclusive (some n))) ∧
    ∀ (given : Option Limits) (limits : Limits) (session : Session) (source : RuleSource) (r : Rule)
      (start : Datum), source.Means given session r → r.validate start = .ok () →
      readStart start = .ok moment → r.toSchedule = .ok schedule →
      (limitsOr given).result session = .ok limits →
      ∃ run, (generate given source start (ask.limited n).query).result session = .ok run ∧
        match Series.ofSchedule schedule moment with
        | .error fault => run.collect = .error fault
        | .ok series =>
          run.items = (series.occurrences.items.filter (ask.wants moment)).take n ∧
            series.LooksAhead (series.occurrences.items.filter (ask.wants moment))
              (series.GoesBeyond ask.after ask.before false) n run.collect := by
  constructor
  · intro inclusive
    cases bound : Series.ofSchedule schedule moment with
    | ok series => exact ask.looksAhead_expand bound inclusive n
    | error fault =>
      dsimp only
      unfold Schedule.expand
      rw [Schedule.occurrences_of_unbound bound]
      exact Run.collect_cut_failed n fault
  · intro given limits session source r start means valid begun made loaded
    refine ⟨_, result_generate_of_means means loaded begun made valid (ask.limited n).query, ?_⟩
    cases bound : Series.ofSchedule schedule moment with
    | ok series =>
      refine ⟨?_, ask.looksAhead_answer bound n limits⟩
      rw [Ask.answer_limited, Run.items_cut, ask.items_wanted bound]
    | error fault =>
      dsimp only
      rw [Ask.answer_limited, Schedule.occurrences_of_unbound bound]
      exact Run.collect_cut_failed n fault

/-- Saturdays. -/
def saturdays : Rule := { Rule.bare (.frequency .weekly) with weekdays := [.every (.weekday .saturday)] }

/-- Midnight at the beginning of the last but one Monday of the calendar, the twentieth of
December 9999, in UTC. -/
def lateMonday : Timestamp where
  seconds := 315536860800
  micros := 0
  offset := some 0
  seconds_lt := by decide
  micros_lt := Timestamp.zero_micros_lt

def saturdaySchedule : Schedule := saturdays.scheduleWith .weekly .monday none [.every .saturday]

/-- What the rule for Saturdays is bound to there. -/
def lateSaturdays : Series := Series.bound saturdaySchedule lateMonday (none, none, none)

/-- The search finds one Saturday, the twenty-fifth, and then fails, since the next one would
be in the year 10000. -/
theorem occurrences_lateSaturdays :
    lateSaturdays.occurrences.items.map Timestamp.date = [⟨9999, 12, 25⟩] ∧
      lateSaturdays.occurrences.ending = some .badValue := by
  decide +kernel

/-- A limit of one does not stop the search behind the only Saturday that is left, and so the
list of it is lost, while a limit of none does stop before it. -/
theorem limit_looksAhead_lateSaturdays :
    saturdays.validate (.moment lateMonday) = .ok () ∧
      saturdays.toSchedule = .ok saturdaySchedule ∧
      saturdaySchedule.expand lateMonday .none .none true (some 1) = .error .badValue ∧
      saturdaySchedule.expand lateMonday .none .none true (some 0) = .ok [] ∧
      ∃ run, (generate (some {}) (.rule saturdays) (.moment lateMonday) (Query.first 1)).result {} =
        .ok run ∧ run.items.map Timestamp.date = [⟨9999, 12, 25⟩] ∧ run.collect = .error .badValue := by
  have valid : saturdays.validate (.moment lateMonday) = .ok () := rfl
  have begun : readStart (.moment lateMonday) = .ok lateMonday := rfl
  have made : saturdays.toSchedule = .ok saturdaySchedule := rfl
  have bound : Series.ofSchedule saturdaySchedule lateMonday = .ok lateSaturdays := rfl
  have means : RuleSource.Means (some {}) {} (.rule saturdays) saturdays := rfl
  have loaded : (limitsOr (some {})).result {} = .ok {} := rfl
  obtain ⟨dates, ending⟩ := occurrences_lateSaturdays
  have single : lateSaturdays.occurrences.items.length = 1 := by
    have length := congrArg List.length dates
    rwa [List.length_map] at length
  have shown : lateSaturdays.occurrences.items.filter (fun t =>
      t.isAfter ({} : Ask).after true && t.isBefore ({} : Ask).before true) =
        lateSaturdays.occurrences.items := List.filter_eq_self.mpr fun _ _ => rfl
  have wanted : lateSaturdays.occurrences.items.filter (({} : Ask).wants lateMonday) =
      lateSaturdays.occurrences.items := List.filter_eq_self.mpr fun _ _ => rfl
  have inside (inclusive : Bool) : ¬lateSaturdays.GoesBeyond none none inclusive := by
    rintro ⟨_, _, _, beyond⟩
    cases beyond
  obtain ⟨expanded, generates⟩ := limit_looksAhead {} 1 saturdaySchedule lateMonday
  obtain ⟨run, generated, found⟩ := generates _ _ _ _ _ _ means valid begun made loaded
  have one := expanded true
  have zero := (limit_looksAhead {} 0 saturdaySchedule lateMonday).1 true
  rw [bound] at found one zero
  dsimp only at one zero
  obtain ⟨items, answered⟩ := found
  rw [shown] at one zero
  rw [wanted] at items answered
  refine ⟨valid, made, one.failed _ ending single.le (inside true), zero.given (.inl (by omega)), run,
    generated, ?_, answered.failed _ ending single.le (inside false)⟩
  rw [items, List.take_of_length_le single.le, dates]

end Work

end Recurrence
