import Recurrence.Proofs.Schedule.Plain
import Recurrence.Proofs.Session.Combining

namespace Recurrence

namespace Rule

/-- Whether a rule has a frequency, an interval and a start of the week, and nothing else. -/
structure IsPlain (r : Rule) (f : Frequency) (k : Nat) : Prop where
  frequency : r.frequency.toFrequency = .ok f
  interval : r.interval = .int k
  count : r.count = .none
  ends : r.ends = .none
  weekStart : ∃ day, r.weekStart.toWeekday = .ok day
  parts : ∀ part, r.values part = []

variable {r : Rule} {f : Frequency} {k : Nat}

theorem IsPlain.settles (isPlain : r.IsPlain f k) (low : 1 ≤ k) (high : k ≤ 65535) :
    ∃ day, r.Settles (.plain f k day) := by
  obtain ⟨day, weekStart⟩ := isPlain.weekStart
  refine ⟨day, isPlain.frequency, isPlain.interval.symm,
    ⟨k, isPlain.interval, Int.ofNat_le.mpr low, Int.ofNat_le.mpr high⟩, isPlain.count.symm,
    .inl isPlain.count, isPlain.ends, weekStart, ?_, fun part _ => ?_, fun part => ?_⟩
  · have unchosen : r.weekdays = [] := isPlain.parts .weekday
    rw [unchosen]
    rfl
  · rw [isPlain.parts, Schedule.values_plain]
  · cases range : part.range? with
    | none =>
      cases part <;> first | rfl | cases range
    | some bounds =>
      obtain ⟨low, high, zeroAllowed⟩ := bounds
      rw [checkPart_ok_iff range, isPlain.parts]
      exact fun _ member => nomatch member

/-- A plain rule is valid from every start on. -/
theorem IsPlain.validate (isPlain : r.IsPlain f k) (low : 1 ≤ k) (high : k ≤ 65535) {start : Datum}
    {moment : Timestamp} (begun : readStart start = .ok moment) :
    r.validate start = .ok () ∧ ∃ day, r.toSchedule = .ok (.plain f k day) := by
  obtain ⟨day, settles⟩ := isPlain.settles low high
  exact ⟨validate_ok_iff.mpr ⟨moment, _, begun, settles, rfl⟩, day, toSchedule_ok_iff.mpr settles⟩

end Rule

/-- A query for occurrences from the start on gives as many as it asks for, or as the limits say. -/
theorem Query.items_answer_plain {query : Query} (noAfter : query.after = .none)
    (noBefore : query.before = .none) (included : query.includeStart = true) {f : Frequency} {k : Nat}
    {weekStart : Weekday} {moment : Timestamp} {series : Series}
    (bound : Series.ofSchedule (.plain f k weekStart) moment = .ok series) (limits : Limits) :
    (query.answer (.plain f k weekStart) moment limits).items =
      series.occurrences.items.take (query.count.getD limits.maxOccurrences).toNat := by
  have limited : query.limit (.plain f k weekStart) limits =
      some (query.count.getD limits.maxOccurrences) := by
    unfold limit
    cases query.count with
    | some n => rfl
    | none => exact if_pos ⟨noBefore, rfl, rfl⟩
  unfold answer
  rw [limited, noAfter, noBefore, Schedule.occurrences_unbounded bound, included]
  dsimp only
  simp

namespace Work

/-- A rule of nothing but a frequency, an interval and a start of the week is valid from
every start on. From a start in whole seconds its occurrences are, in order, all that the
clock of the start shows after no, one, two and more intervals: for weeks and shorter
units whatever time has passed, and for months and years the start moved by so many
of them, where the day of the start exists. A query for them, by rule or by text, gives
as many as it asks for, or as the limits say. -/
theorem expansion_progresses {r : Rule} {f : Frequency} {k : Nat} (isPlain : r.IsPlain f k)
    (low : 1 ≤ k) (high : k ≤ 65535) {start : Datum} {moment : Timestamp}
    (begun : readStart start = .ok moment) (whole : moment.micros = 0) :
    r.validate start = .ok () ∧ ∃ schedule all, r.toSchedule = .ok schedule ∧
      moment.IsProgression f k all ∧
      (∀ inclusive, (schedule.occurrences moment .none .none inclusive).items = all) ∧
      ∀ given limits source before middle,
        (limitsOr given).outcome before = (.ok limits, middle) → source.Means given before r →
        ∀ query : Query, query.after = .none → query.before = .none →
          query.includeStart = true → ∃ run after,
            (generate given source start query).outcome before = (.ok run, after) ∧
            run.items = all.take (query.count.getD limits.maxOccurrences).toNat := by
  obtain ⟨valid, day, made⟩ := isPlain.validate low high begun
  have begins : moment.aware.cutSeconds = moment := by
    rw [aware_of_readStart begun]
    obtain ⟨seconds, micros, offset, _, _⟩ := moment
    cases whole
    rfl
  obtain ⟨series, bound, progression⟩ := Schedule.occurrences_plain f day low high begins
  refine ⟨valid, _, _, made, progression, fun inclusive => ?_, ?_⟩
  · rw [Schedule.occurrences_of_bound bound (a := none) (b := none) rfl rfl]
    rfl
  · intro given limits source before middle loaded means query noAfter noBefore included
    obtain ⟨after, found, _⟩ := outcome_ruleOf (means.of_limitsOr loaded)
    exact ⟨_, after, outcome_generate_of_ruleOf loaded found begun made valid query,
      Query.items_answer_plain noAfter noBefore included bound limits⟩

/-- Half past nine in the morning of the twenty-ninth of February 2024, two hours ahead of UTC. -/
def leapDay : Timestamp where
  seconds := 63844795800
  micros := 0
  offset := some 7200
  seconds_lt := by decide
  micros_lt := Timestamp.zero_micros_lt

/-- Every second year from a leap day on there are only the leap days. -/
theorem expansion_progresses_leapDay :
    let r := { Rule.bare (.frequency .yearly) with interval := .int 2, weekStart := .weekday .sunday }
    let source : RuleSource := .text "FREQ=YEARLY;INTERVAL=2;WKST=SU".toList
    r.IsPlain .yearly 2 ∧ readStart (.moment leapDay) = .ok leapDay ∧ source.Means none {} r ∧
      ∃ run after,
        (generate none source (.moment leapDay) { count := some 3 }).outcome {} = (.ok run, after) ∧
        run.items.map Timestamp.date = [⟨2024, 2, 29⟩, ⟨2028, 2, 29⟩, ⟨2032, 2, 29⟩] := by
  intro r source
  have isPlain : r.IsPlain .yearly 2 :=
    ⟨rfl, rfl, rfl, rfl, ⟨.sunday, rfl⟩, fun part => by cases part <;> rfl⟩
  have begun : readStart (.moment leapDay) = .ok leapDay := rfl
  have means : source.Means none {} r := ⟨{}, by rw [outcome_limitsOr_fresh], by cbv⟩
  obtain ⟨_, _, all, _, progression, _, generated⟩ :=
    expansion_progresses isPlain (by decide) (by decide) begun rfl
  obtain ⟨run, after, done, items⟩ :=
    generated none {} source {} _ outcome_limitsOr_fresh means { count := some 3 } rfl rfl rfl
  refine ⟨isPlain, begun, means, run, after, done, ?_⟩
  have shown : (leapDay.later? .yearly (4 * 2)).isSome = true := by decide +kernel
  obtain ⟨rest, whole⟩ := progression.exists_eq_append shown
  have first : ((List.range (4 + 1)).filterMap fun n => leapDay.later? .yearly (n * 2)).map
      Timestamp.date = [⟨2024, 2, 29⟩, ⟨2028, 2, 29⟩, ⟨2032, 2, 29⟩] := by decide +kernel
  rw [items, whole, List.map_take, List.map_append, first]
  rfl

end Work

end Recurrence
