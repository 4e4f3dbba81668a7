import Recurrence.Proofs.Schedule.Bare
import Recurrence.Proofs.Session.Resolution

namespace Recurrence

namespace Schedule

/-- The check of a schedule reads nothing of a start but its instant, and shows the
start only where the end is before it. -/
theorem check_of_instant (s : Schedule) {t utc : Timestamp} (together : utc.instant = t.instant) :
    s.check utc = s.check t ∨
      ∃ ends, s.check t = .error (.diagnostic (.endBeforeStart ends t.aware)) ∧
        s.check utc = .error (.diagnostic (.endBeforeStart ends utc.aware)) := by
  unfold check
  rw [together]
  cases s.checkRanges with
  | error refusal => exact .inl rfl
  | ok _ =>
    cases s.checkFrequencyParts with
    | error refusal => exact .inl rfl
    | ok _ =>
      by_cases lone : (!s.setPositions.isEmpty && !s.hasListPart) = true
      · dsimp only
        rw [if_pos lone, if_pos lone]
        exact .inl rfl
      · dsimp only
        rw [if_neg lone, if_neg lone]
        cases s.ends with
        | none => exact .inl rfl
        | some ends =>
          by_cases counted : (s.count != .none) = true
          · dsimp only
            rw [if_pos counted, if_pos counted]
            exact .inl rfl
          · by_cases early : ends.instant < t.instant
            · dsimp only
              rw [if_neg counted, if_neg counted, if_pos early, if_pos early]
              exact .inr ⟨ends, rfl, rfl⟩
            · dsimp only
              rw [if_neg counted, if_neg counted, if_neg early, if_neg early]
              exact .inl rfl

end Schedule

namespace Rule

theorem validate_moment (r : Rule) (t : Timestamp) :
    r.validate (.moment t) =
      (r.toSchedule >>= fun schedule => (schedule.check t.aware).mapError Rejection.ofRefusal) := rfl

/-- A rule is valid or not whatever clock shows the start. Only the objection that the
end is before the start shows the start on its own clock. -/
theorem validate_of_instant (r : Rule) {t utc : Timestamp} (together : utc.instant = t.instant) :
    r.validate (.moment utc) = r.validate (.moment t) ∨
      ∃ ends, r.validate (.moment t) =
          .error (.objection (.refused (.endBeforeStart ends t.aware))) ∧
        r.validate (.moment utc) =
          .error (.objection (.refused (.endBeforeStart ends utc.aware))) := by
  rw [validate_moment, validate_moment]
  cases r.toSchedule with
  | error rejection => exact .inl rfl
  | ok schedule =>
    have aware : utc.aware.instant = t.aware.instant := together
    rcases schedule.check_of_instant aware with same | ⟨ends, here, there⟩
    · exact .inl (congrArg (Except.mapError Rejection.ofRefusal) same)
    · exact .inr ⟨ends, congrArg (Except.mapError Rejection.ofRefusal) here,
        congrArg (Except.mapError Rejection.ofRefusal) there⟩

end Rule

namespace Work

theorem ext {α : Type} {work other : Work α}
    (same : ∀ session, work.outcome session = other.outcome session) : work = other :=
  funext same

theorem map_lift {ε α β : Type} (f : α → β) (wrap : ε → Failure) (x : Except ε α) :
    f <$> lift wrap x = lift wrap (x.map f) := by
  cases x <;> rfl

/-- Whether two starts lead a rule through the same instants, whatever is asked of it. -/
structure SameInstants (r : Rule) (start other : Datum) : Prop where
  generate : ∀ given query,
    Run.map Timestamp.instant <$> generate given (.rule r) start query =
      Run.map Timestamp.instant <$> generate given (.rule r) other query
  between : ∀ given after before inclusive,
    List.map Timestamp.instant <$> between given (.rule r) start after before inclusive =
      List.map Timestamp.instant <$> between given (.rule r) other after before inclusive
  next : ∀ given moment inclusive,
    Option.map Timestamp.instant <$> next given (.rule r) start moment inclusive =
      Option.map Timestamp.instant <$> next given (.rule r) other moment inclusive
  previous : ∀ given moment inclusive,
    Option.map Timestamp.instant <$> previous given (.rule r) start moment inclusive =
      Option.map Timestamp.instant <$> previous given (.rule r) other moment inclusive

section Valid

variable {r : Rule} {start other : Datum} {moment otherMoment : Timestamp} {schedule : Schedule}

theorem resolve_eq (begun : readStart start = .ok moment) (made : r.toSchedule = .ok schedule)
    (valid : r.validate start = .ok ()) (given : Option Limits) :
    resolve given (.rule r) start = pure (schedule, moment) :=
  ext fun session => outcome_resolve begun made valid given session

theorem sameInstants_of_instants (begun : readStart start = .ok moment)
    (otherBegun : readStart other = .ok otherMoment) (made : r.toSchedule = .ok schedule)
    (valid : r.validate start = .ok ()) (otherValid : r.validate other = .ok ())
    (together : moment.instant = otherMoment.instant)
    (same : schedule.instants moment = schedule.instants otherMoment) :
    SameInstants r start other := by
  have here := resolve_eq begun made valid
  have there := resolve_eq otherBegun made otherValid
  constructor
  · intro given query
    unfold generate
    simp only [here, there, pure_bind, map_bind, map_pure, Schedule.map_answer, same, together]
  · intro given after before inclusive
    unfold between
    simp only [here, there, pure_bind, map_lift, Schedule.map_expand, same]
  · intro given bound inclusive
    unfold next
    simp only [here, there, pure_bind, map_lift, Schedule.map_occurrenceAfter, same]
  · intro given bound inclusive
    unfold previous
    simp only [here, there, pure_bind, map_lift, Schedule.map_occurrenceBefore, same]

end Valid

section Text

variable {t utc : Timestamp} {offset : Int}

theorem readStart_isoText (zoned : t.IsZoned offset) (inside : t.toUtc? = some utc) :
    readStart (.str t.isoText) = .ok utc := by
  unfold readStart Datum.asText?
  dsimp only
  rw [Option.map_some, Timestamp.read_isoText zoned inside]

theorem aware_of_toUtc? (inside : t.toUtc? = some utc) : utc.aware = utc :=
  Timestamp.aware_of_offset (Timestamp.offset_of_toUtc? inside)

theorem readStart_utc (inside : t.toUtc? = some utc) : readStart (.moment utc) = .ok utc :=
  congrArg Except.ok (aware_of_toUtc? inside)

theorem validate_isoText (zoned : t.IsZoned offset) (inside : t.toUtc? = some utc) (r : Rule) :
    r.validate (.str t.isoText) = r.validate (.moment utc) := by
  unfold Rule.validate
  rw [readStart_isoText zoned inside, readStart_utc inside]

/-- Whether the occurrences that a start gives, for whatever query, agree with those of
another one as far as two clocks show their instants. -/
def AgreeOnClocks (offset other : Int) (r : Rule) (start otherStart : Datum) : Prop :=
  ∀ given limits before after, (limitsOr given).outcome before = (.ok limits, after) →
    ∀ query, ∃ here there,
      (generate given (.rule r) start query).outcome before = (.ok here, after) ∧
      (generate given (.rule r) otherStart query).outcome before = (.ok there, after) ∧
      AgreeWhile (fun i => Timestamp.Shows offset i ∧ Timestamp.Shows other i)
        (here.items.map Timestamp.instant) (there.items.map Timestamp.instant)

/-- What is enough for a schedule to go through the same instants from a start, whose
clock is so far ahead of UTC, and from the same start on the UTC clock. -/
def KeepsInstants (schedule : Schedule) (t utc : Timestamp) (offset : Int) : Prop :=
  offset = 0 ∨
    schedule.frequency.isWithinDay = false ∧ schedule.LeavesClock offset ∧ t.date = utc.date ∨
    schedule.IsBare ∧ ∀ start ∈ [t, utc], ∀ series,
      Series.ofSchedule schedule start = .ok series → ¬series.StaysOpen

theorem instants_of_keepsInstants {schedule : Schedule} {moment : Timestamp}
    (sound : schedule.IsSound moment) (zoned : t.IsZoned offset) (inside : t.toUtc? = some utc)
    (keeps : KeepsInstants schedule t utc offset) : schedule.instants t = schedule.instants utc := by
  rcases keeps with rfl | ⟨long, leaves, date⟩ | ⟨bare, closed⟩
  · have same := Timestamp.toUtc?_of_utc zoned.1
    rw [inside] at same
    cases same
    rfl
  · exact Schedule.instants_of_sameDay sound zoned inside long leaves date
  · exact Schedule.instants_of_bare_closed sound bare inside closed

theorem agreeOnClocks_of_bare {r : Rule} {start : Datum} {schedule : Schedule}
    {moment : Timestamp} (sound : schedule.IsSound moment) (bare : schedule.IsBare)
    (zoned : t.IsZoned offset) (inside : t.toUtc? = some utc) (made : r.toSchedule = .ok schedule)
    (valid : r.validate (.moment t) = .ok ()) (begun : readStart start = .ok utc)
    (startValid : r.validate start = .ok ()) :
    AgreeOnClocks offset 0 r (.moment t) start := by
  have begunHere : readStart (.moment t) = .ok t :=
    congrArg Except.ok (Timestamp.aware_of_offset zoned.1)
  obtain ⟨left, right, here, there, agree⟩ :=
    Schedule.instants_of_bare sound bare zoned.1 inside
  intro given limits before after loaded query
  refine ⟨_, _, outcome_generate begunHere made valid loaded query,
    outcome_generate begun made startValid loaded query, ?_⟩
  rw [← Run.items_map, ← Run.items_map, Schedule.map_answer, Schedule.map_answer, here, there,
    Timestamp.instant_of_toUtc? inside]
  exact Schedule.agree_answered agree query schedule limits t.instant

/-- The text of a start stands for the same start in UTC, whatever is done with it. The
rule is valid from the one when it is from the other, and both give the same instants,
or agree as far as both clocks show them, when the clock of the start does not matter
to the rule. -/
theorem text_start (zoned : t.IsZoned offset) (inside : t.toUtc? = some utc) :
    (∀ given source,
      generate given source (.str t.isoText) = generate given source (.moment utc) ∧
      between given source (.str t.isoText) = between given source (.moment utc) ∧
      next given source (.str t.isoText) = next given source (.moment utc) ∧
      previous given source (.str t.isoText) = previous given source (.moment utc)) ∧
    (∀ r : Rule, r.validate (.str t.isoText) = r.validate (.moment t) ∨
      ∃ ends, r.validate (.moment t) = .error (.objection (.refused (.endBeforeStart ends t))) ∧
        r.validate (.str t.isoText) =
          .error (.objection (.refused (.endBeforeStart ends utc)))) ∧
    ∀ (r : Rule) schedule, r.validate (.moment t) = .ok () → r.toSchedule = .ok schedule →
      (KeepsInstants schedule t utc offset →
        SameInstants r (.moment t) (.str t.isoText)) ∧
      (schedule.IsBare → AgreeOnClocks offset 0 r (.moment t) (.str t.isoText)) := by
  have together := Timestamp.instant_of_toUtc? inside
  have aware := Timestamp.aware_of_offset zoned.1
  have begun : readStart (.moment t) = .ok t := congrArg Except.ok aware
  have text : readStart (.str t.isoText) = readStart (.moment utc) :=
    (readStart_isoText zoned inside).trans (readStart_utc inside).symm
  have resolved (given : Option Limits) (source : RuleSource) :
      resolve given source (.str t.isoText) = resolve given source (.moment utc) := by
    unfold resolve
    rw [text]
  have validated := validate_isoText zoned inside
  refine ⟨fun given source => ?_, fun r => ?_, fun r schedule valid made => ?_⟩
  · refine ⟨?_, ?_, ?_, ?_⟩
    · unfold generate
      simp only [resolved]
    · unfold between
      simp only [resolved]
    · unfold next
      simp only [resolved]
    · unfold previous
      simp only [resolved]
  · rw [validated]
    have cases := r.validate_of_instant together
    rwa [aware, aware_of_toUtc? inside] at cases
  · have textValid : r.validate (.str t.isoText) = .ok () := by
      rw [validated]
      rcases r.validate_of_instant together with same | ⟨_, refused, _⟩
      · rw [same, valid]
      · cases valid.symm.trans refused
    obtain ⟨moment, settled, _, settles, checked⟩ := Rule.validate_ok_iff.mp valid
    cases made.symm.trans (Rule.toSchedule_ok_iff.mpr settles)
    have sound := settles.isSound checked
    have textBegun := readStart_isoText zoned inside
    refine ⟨fun keeps => ?_, fun bare => ?_⟩
    · exact sameInstants_of_instants begun textBegun made valid textValid together.symm
        (instants_of_keepsInstants sound zoned inside keeps)
    · exact agreeOnClocks_of_bare sound bare zoned inside made valid textBegun textValid

end Text

/-- Nine in the morning of the sixth of January 2025 lies within the years. -/
theorem nine_within : 63871750800 < 315537897600 := by decide

/-- Nine in the morning of the sixth of January 2025, two hours ahead of UTC. -/
def morning : Timestamp where
  seconds := 63871750800
  micros := 0
  offset := some 7200
  seconds_lt := nine_within
  micros_lt := Timestamp.zero_micros_lt

/-- The same moment in UTC. -/
def sevenUtc : Timestamp where
  seconds := 63871743600
  micros := 0
  offset := some 0
  seconds_lt := by decide
  micros_lt := Timestamp.zero_micros_lt

/-- Every second Monday. -/
def mondays : Rule :=
  { Rule.bare (.frequency .weekly) with interval := .int 2, weekdays := [.every (.weekday .monday)] }

theorem sameInstants_mondays :
    morning.IsZoned 7200 ∧ morning.toUtc? = some sevenUtc ∧
      mondays.validate (.moment morning) = .ok () ∧
      SameInstants mondays (.moment morning) (.str morning.isoText) := by
  have zoned : morning.IsZoned 7200 := ⟨rfl, rfl, by decide⟩
  have inside : morning.toUtc? = some sevenUtc := rfl
  have valid : mondays.validate (.moment morning) = .ok () := rfl
  have made : mondays.toSchedule = .ok (mondays.scheduleWith .weekly .monday none [.every .monday]) := rfl
  have date : morning.date = sevenUtc.date := rfl
  exact ⟨zoned, inside, valid, ((text_start zoned inside).2.2 mondays _ valid made).1
    (.inr (.inl ⟨rfl, ⟨rfl, .inl rfl⟩, date⟩))⟩

/-- Every day, but only at nine o'clock. -/
def nineDaily : Rule := { Rule.bare (.frequency .daily) with hours := [.int 9] }

/-- The first occurrence from a start on is found there when the first period gives it. -/
theorem next_of_first {r : Rule} {start : Datum} {moment t : Timestamp} {schedule : Schedule}
    {series : Series} (begun : readStart start = .ok moment) (made : r.toSchedule = .ok schedule)
    (valid : r.validate start = .ok ()) (bound : Series.ofSchedule schedule moment = .ok series)
    (first : ∃ more, series.occurrences = .next t more) (since : Timestamp)
    (past : t.isPast since true = true) :
    next none (.rule r) start (.moment since) true = pure (some t) := by
  obtain ⟨more, first⟩ := first
  have found : schedule.occurrenceAfter moment (.moment since) true = .ok (some t) := by
    unfold Schedule.occurrenceAfter
    rw [bound]
    change series.occurrences.find? (fun t => t.isPast since true) = _
    rw [first, Run.find?, past]
    rfl
  unfold next
  rw [resolve_eq begun made valid, pure_bind]
  dsimp only
  rw [found]
  rfl

/-- What the rule for nine o'clock is bound to. -/
def nineSeries (start : Timestamp) : Series :=
  Series.bound (nineDaily.scheduleWith .daily .monday none []) start (some [9], none, none)

/-- Nine o'clock of UTC on the same day. -/
def nineUtc : Timestamp where
  seconds := 63871750800
  micros := 0
  offset := some 0
  seconds_lt := nine_within
  micros_lt := Timestamp.zero_micros_lt

theorem not_sameInstants_nineDaily :
    morning.IsZoned 7200 ∧ morning.toUtc? = some sevenUtc ∧
      nineDaily.validate (.moment morning) = .ok () ∧
      nineDaily.validate (.str morning.isoText) = .ok () ∧
      ¬SameInstants nineDaily (.moment morning) (.str morning.isoText) := by
  have zoned : morning.IsZoned 7200 := ⟨rfl, rfl, by decide⟩
  have inside : morning.toUtc? = some sevenUtc := rfl
  have valid : nineDaily.validate (.moment morning) = .ok () := rfl
  have textValid : nineDaily.validate (.str morning.isoText) = .ok () :=
    validate_isoText zoned inside nineDaily
  have made : nineDaily.toSchedule = .ok (nineDaily.scheduleWith .daily .monday none []) := rfl
  have today : (nineSeries morning).yearTable 739257 = .ok ⟨739252, [], []⟩ := rfl
  have todayUtc : (nineSeries sevenUtc).yearTable 739257 = .ok ⟨739252, [], []⟩ := rfl
  have given : (nineSeries morning).candidates [32400] [739257] =
      .next morning fun _ => .done := rfl
  have givenUtc : (nineSeries sevenUtc).candidates [32400] [739257] =
      .next nineUtc fun _ => .done := rfl
  have first : ∃ more, (nineSeries morning).occurrences = .next morning more :=
    Series.occurrences_first (nineSeries morning).firstPeriod_inside today given rfl rfl rfl
  have firstUtc : ∃ more, (nineSeries sevenUtc).occurrences = .next nineUtc more :=
    Series.occurrences_first (nineSeries sevenUtc).firstPeriod_inside todayUtc givenUtc rfl rfl rfl
  have here := next_of_first rfl made valid rfl first morning rfl
  have there := next_of_first (readStart_isoText zoned inside) made textValid rfl firstUtc morning rfl
  refine ⟨zoned, inside, valid, textValid, fun same => ?_⟩
  have both := same.next none (.moment morning) true
  rw [here, there] at both
  have answers := congrFun both {}
  cases answers

end Work

end Recurrence
