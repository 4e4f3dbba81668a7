import Recurrence.Proofs.Rule.Layers
import Recurrence.Proofs.Schedule.Reordering
import Recurrence.Proofs.Session.Expansion

namespace Recurrence

namespace Schedule

variable {s t : Schedule} {start : Timestamp}

section Bound

variable (bound : Outcome.Related (fun series other : Series => series.occurrences = other.occurrences)
  (Series.ofSchedule s start) (Series.ofSchedule t start))

include bound

/-- What depends on a series through its occurrences alone is the same. -/
theorem bind_of_related {β : Type} {use : Series → Except Fault β}
    (depends : ∀ series other : Series, series.occurrences = other.occurrences → use series = use other) :
    (Series.ofSchedule s start >>= use) = (Series.ofSchedule t start >>= use) := by
  generalize Series.ofSchedule s start = here at bound
  generalize Series.ofSchedule t start = there at bound
  cases bound with
  | error fault => rfl
  | ok same => exact depends _ _ same

theorem occurrences_of_related (after before : Datum) (inclusive : Bool) :
    s.occurrences start after before inclusive = t.occurrences start after before inclusive := by
  refine congrArg Run.ofExcept (bind_of_related bound fun series other same => ?_)
  have window : series.window = other.window := by
    unfold Series.window
    rw [same]
  rw [window]

theorem expand_of_related (after before : Datum) (inclusive : Bool) (limit : Option Int) :
    s.expand start after before inclusive limit = t.expand start after before inclusive limit := by
  unfold expand
  rw [occurrences_of_related bound]

theorem occurrenceAfter_of_related (moment : Datum) (inclusive : Bool) :
    s.occurrenceAfter start moment inclusive = t.occurrenceAfter start moment inclusive :=
  bind_of_related bound fun _ _ same => by rw [same]

theorem occurrenceBefore_of_related (moment : Datum) (inclusive : Bool) :
    s.occurrenceBefore start moment inclusive = t.occurrenceBefore start moment inclusive :=
  bind_of_related bound fun _ _ same => by rw [same]

theorem answer_of_related (count : t.count = s.count) (ends : t.ends = s.ends) (query : Query)
    (limits : Limits) : query.answer s start limits = query.answer t start limits := by
  unfold Query.answer Query.limit
  rw [occurrences_of_related bound, count, ends]

end Bound

end Schedule

namespace Rule

/-- Whether two rules differ in nothing but the order and the repetition of the entries of their
lists. -/
structure Reorders (f g : Rule) : Prop where
  frequency : g.frequency = f.frequency
  interval : g.interval = f.interval
  count : g.count = f.count
  ends : g.ends = f.ends
  weekStart : g.weekStart = f.weekStart
  values : ∀ part, SameMembers (f.values part) (g.values part)

namespace Reorders

variable {f g : Rule} {s t : Schedule}

theorem symm (same : f.Reorders g) : g.Reorders f where
  frequency := same.frequency.symm
  interval := same.interval.symm
  count := same.count.symm
  ends := same.ends.symm
  weekStart := same.weekStart.symm
  values part := (same.values part).symm

/-- The values of a rule settle when they do in another order. -/
theorem settles (same : f.Reorders g) (settles : f.Settles s) : ∃ t, g.Settles t := by
  obtain ⟨choices, read⟩ : ∃ choices, readChoices g.weekdays = .ok choices := by
    have each := Outcome.mapM_ok_iff.mp ⟨_, (readChoices_eq f.weekdays).symm.trans settles.weekdays⟩
    rw [readChoices_eq, Outcome.mapM_ok_iff]
    exact (same.values .weekday).forall_iff.mp each
  obtain ⟨settled, rfl, _⟩ := readChoices_toDatum read
  refine ⟨g.scheduleWith s.frequency s.weekStart s.ends settled, ?_⟩
  constructor
  case frequency => exact same.frequency ▸ settles.frequency
  case sameInterval => rfl
  case interval => exact same.interval ▸ settles.interval
  case sameCount => rfl
  case count => exact same.count ▸ settles.count
  case ends => exact same.ends.trans settles.ends
  case weekStart => exact same.weekStart ▸ settles.weekStart
  case weekdays => exact read
  case sameValues =>
    intro part numeric
    cases part with
    | weekday => exact absurd rfl numeric
    | _ => rfl
  case inRange =>
    intro part
    exact checkPart_of_subset (fun d => (same.values part d).mpr) (settles.inRange part)

/-- Rules with reordered lists have schedules with reordered lists. -/
theorem schedules (same : f.Reorders g) (here : f.Settles s) (there : g.Settles t) : s.Reorders t := by
  have values (part : ListPart) (numeric : part ≠ .weekday) :
      SameMembers (s.values part) (t.values part) := by
    rw [here.sameValues part numeric, there.sameValues part numeric]
    exact same.values part
  constructor
  case frequency =>
    have found := there.frequency
    rw [same.frequency, here.frequency] at found
    exact (Except.ok.inj found).symm
  case interval => rw [here.sameInterval, there.sameInterval, same.interval]
  case count => rw [here.sameCount, there.sameCount, same.count]
  case ends =>
    have found := there.ends
    rw [same.ends, here.ends] at found
    cases own : s.ends with
    | none =>
      cases other : t.ends with
      | none => rfl
      | some last =>
        rw [own, other] at found
        cases found
    | some last =>
      cases other : t.ends with
      | none =>
        rw [own, other] at found
        cases found
      | some later =>
        rw [own, other] at found
        cases found
        rfl
  case weekStart =>
    have found := there.weekStart
    rw [same.weekStart, here.weekStart] at found
    exact (Except.ok.inj found).symm
  case setPositions => exact values .setPosition (by decide)
  case months => exact values .month (by decide)
  case monthDays => exact values .monthDay (by decide)
  case yearDays => exact values .yearDay (by decide)
  case weekNumbers => exact values .weekNumber (by decide)
  case weekdays =>
    have read := (same.values .weekday).mapM ((readChoices_eq _).symm.trans here.weekdays)
      ((readChoices_eq _).symm.trans there.weekdays)
    have inverse (choices : List DayChoice) :
        (choices.map DayChoice.toDatum).filterMap DayChoice.ofDatum? = choices := by
      rw [List.filterMap_map]
      exact (List.filterMap_congr fun choice _ => DayChoice.ofDatum?_toDatum choice).trans
        List.filterMap_some
    have choices := read.filterMap DayChoice.ofDatum?
    rwa [inverse, inverse] at choices
  case hours => exact values .hour (by decide)
  case minutes => exact values .minute (by decide)
  case seconds => exact values .second (by decide)

/-- A rule is valid from a start on when it is with its lists in another order. -/
theorem valid (same : f.Reorders g) {start : Datum} (valid : f.validate start = .ok ()) :
    g.validate start = .ok () := by
  obtain ⟨moment, s, begun, here, checked⟩ := validate_ok_iff.mp valid
  obtain ⟨t, there⟩ := same.settles here
  refine validate_ok_iff.mpr ⟨moment, t, begun, there, ?_⟩
  refine ((same.schedules here there).check_ok_iff here.checkRanges there.checkRanges ?_
    fun d => here.months_found).mp checked
  intro d member
  obtain ⟨n, isInt, _⟩ := here.numbers .monthDay _ _ _ rfl d member
  exact ⟨n, isInt⟩

end Reorders

end Rule

namespace Work

/-- A valid rule is resolved to its schedule, whatever the session. -/
theorem resolve_of_valid {r : Rule} {start : Datum} {moment : Timestamp} {schedule : Schedule}
    (begun : readStart start = .ok moment) (made : r.toSchedule = .ok schedule)
    (valid : r.validate start = .ok ()) (given : Option Limits) :
    resolve given (.rule r) start = pure (schedule, moment) :=
  funext fun session => outcome_resolve begun made valid given session

/-- Whether two rules give the same in every session, in all ways to ask for their occurrences
from a start on. What they give includes the errors on the way. -/
structure ExpandAlike (f g : Rule) (start : Datum) : Prop where
  generate : ∀ given query,
    generate given (.rule f) start query = generate given (.rule g) start query
  between : ∀ given after before inclusive,
    between given (.rule f) start after before inclusive = between given (.rule g) start after before inclusive
  next : ∀ given moment inclusive,
    next given (.rule f) start moment inclusive = next given (.rule g) start moment inclusive
  previous : ∀ given moment inclusive,
    previous given (.rule f) start moment inclusive = previous given (.rule g) start moment inclusive

/-- The lists of a rule are sets. With their entries in another order, or repeated, the rule is
valid from the same starts on, and from these it has the same occurrences in the same order,
and the same error behind them if there is one, also when set positions choose among them. -/
theorem reordered_alike {f g : Rule} (same : f.Reorders g) (start : Datum) :
    (f.validate start = .ok () ↔ g.validate start = .ok ()) ∧
    (f.validate start = .ok () → ExpandAlike f g start ∧
      ∃ moment schedule other, readStart start = .ok moment ∧ f.toSchedule = .ok schedule ∧
        g.toSchedule = .ok other ∧ ∀ after before inclusive,
          schedule.occurrences moment after before inclusive =
            other.occurrences moment after before inclusive) := by
  refine ⟨⟨same.valid, same.symm.valid⟩, fun valid => ?_⟩
  have otherValid := same.valid valid
  obtain ⟨moment, s, begun, here, checked⟩ := Rule.validate_ok_iff.mp valid
  obtain ⟨_, t, again, there, otherChecked⟩ := Rule.validate_ok_iff.mp otherValid
  cases begun.symm.trans again
  have schedules := same.schedules here there
  have bound := Series.ofSchedule_related schedules (here.isSound checked) (there.isSound otherChecked)
    moment
  have made := Rule.toSchedule_ok_iff.mpr here
  have otherMade := Rule.toSchedule_ok_iff.mpr there
  have resolved := resolve_of_valid begun made valid
  have otherResolved := resolve_of_valid begun otherMade otherValid
  refine ⟨⟨fun given query => ?_, fun given after before inclusive => ?_,
    fun given asked inclusive => ?_, fun given asked inclusive => ?_⟩,
    moment, s, t, begun, made, otherMade, Schedule.occurrences_of_related bound⟩
  · unfold Work.generate
    simp only [resolved, otherResolved, pure_bind,
      Schedule.answer_of_related bound schedules.count schedules.ends]
  · unfold Work.between
    simp only [resolved, otherResolved, pure_bind, Schedule.expand_of_related bound]
  · unfold Work.next
    simp only [resolved, otherResolved, pure_bind, Schedule.occurrenceAfter_of_related bound]
  · unfold Work.previous
    simp only [resolved, otherResolved, pure_bind, Schedule.occurrenceBefore_of_related bound]

/-- The last day but one of each month that is a Monday or a Friday, and the first. -/
def secondLast : Rule :=
  { Rule.bare (.frequency .monthly) with
    setPositions := [.int (-2), .int 1]
    weekdays := [.every (.weekday .monday), .every (.weekday .friday)] }

/-- The same days and set positions in another order, one of each twice. -/
def secondLastTurned : Rule :=
  { Rule.bare (.frequency .monthly) with
    setPositions := [.int 1, .int (-2), .int 1]
    weekdays := [.every (.weekday .friday), .every (.weekday .monday), .every (.weekday .friday)] }

theorem reordered_alike_secondLast :
    secondLast.Reorders secondLastTurned ∧ secondLast.validate (.moment midnight) = .ok () ∧
      secondLastTurned.validate (.moment midnight) = .ok () ∧
      ExpandAlike secondLast secondLastTurned (.moment midnight) := by
  have same : secondLast.Reorders secondLastTurned := by
    refine ⟨rfl, rfl, rfl, rfl, rfl, fun part => ?_⟩
    cases part with
    | setPosition | weekday =>
      intro d
      simp only [Rule.values, secondLast, secondLastTurned, List.mem_cons, List.not_mem_nil, or_false]
      tauto
    | _ => exact .refl _
  have valid : secondLast.validate (.moment midnight) = .ok () := rfl
  obtain ⟨accepted, alike⟩ := reordered_alike same (.moment midnight)
  exact ⟨same, valid, accepted.mp valid, (alike valid).1⟩

end Work

end Recurrence
