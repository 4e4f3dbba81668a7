import Recurrence.Proofs.Calendar.UtcClock
import Recurrence.Proofs.Rule.Settling
import Recurrence.Session.Occurrences

namespace Recurrence

namespace Timestamp

theorem aware_of_offset {t : Timestamp} {offset : Int} (known : t.offset = some offset) :
    t.aware = t := by
  obtain ⟨seconds, micros, found, _, _⟩ := t
  cases known
  rfl

end Timestamp

/-- A start that is read knows its distance from UTC. -/
theorem aware_of_readStart {start : Datum} {moment : Timestamp}
    (begun : readStart start = .ok moment) : moment.aware = moment := by
  unfold readStart at begun
  split at begun
  · cases begun
    rfl
  · split at begun
    · rename_i t found
      cases begun
      obtain ⟨text, _, found⟩ := Option.map_eq_some_iff.mp found
      exact Timestamp.aware_of_offset (Timestamp.offset_of_read found)
    · cases begun

theorem readStart_of_readStart {start : Datum} {moment : Timestamp}
    (begun : readStart start = .ok moment) : readStart (.moment moment) = .ok moment :=
  congrArg Except.ok (aware_of_readStart begun)

/-- A rule is valid from a start on just when it is from the moment that the start is read as. -/
theorem Rule.validate_iff_of_readStart {r : Rule} {start : Datum} {moment : Timestamp}
    (begun : readStart start = .ok moment) :
    r.validate (.moment moment) = .ok () ↔ r.validate start = .ok () := by
  rw [validate_ok_iff, validate_ok_iff, begun, readStart_of_readStart begun]

/-- The occurrences of a schedule are those that its series shows in the window. -/
theorem Schedule.occurrences_of_bound {schedule : Schedule} {start : Timestamp} {series : Series}
    (bound : Series.ofSchedule schedule start = .ok series) {after before : Datum}
    {a b : Option Timestamp} (readAfter : after.toBound = .ok a) (readBefore : before.toBound = .ok b)
    (inclusive : Bool) :
    schedule.occurrences start after before inclusive = series.window a b inclusive := by
  unfold occurrences
  rw [bound, readAfter, readBefore]
  rfl

/-- Without bounds they are all occurrences of the series. -/
theorem Schedule.occurrences_unbounded {schedule : Schedule} {start : Timestamp} {series : Series}
    (bound : Series.ofSchedule schedule start = .ok series) :
    schedule.occurrences start .none .none false = series.occurrences := by
  rw [occurrences_of_bound bound (a := none) (b := none) rfl rfl]
  rfl

namespace Work

/-- The outcome of a piece of work in a session, and the session afterwards. -/
def outcome {α : Type} (work : Work α) (session : Session) : Except Failure α × Session :=
  work.run.run session

/-- What a piece of work comes to in a session. -/
def result {α : Type} (work : Work α) (session : Session) : Except Failure α :=
  (work.outcome session).1

theorem result_of_outcome {α : Type} {work : Work α} {found : Except Failure α}
    {before after : Session} (done : work.outcome before = (found, after)) :
    work.result before = found :=
  congrArg Prod.fst done

theorem outcome_bind {α β : Type} {work : Work α} {next : α → Work β} {a : α}
    {before after : Session} (done : work.outcome before = (.ok a, after)) :
    (work >>= next).outcome before = (next a).outcome after := by
  unfold outcome at *
  rw [ExceptT.run_bind, StateT.run_bind, done]
  rfl

theorem outcome_bind_error {α β : Type} {work : Work α} {next : α → Work β} {failure : Failure}
    {before after : Session} (failed : work.outcome before = (.error failure, after)) :
    (work >>= next).outcome before = (.error failure, after) := by
  unfold outcome at *
  rw [ExceptT.run_bind, StateT.run_bind, failed]
  rfl

/-- What succeeds in two steps does so in each. -/
theorem of_outcome_bind {α β : Type} {work : Work α} {next : α → Work β} {b : β}
    {before after : Session} (done : (work >>= next).outcome before = (.ok b, after)) :
    ∃ a middle, work.outcome before = (.ok a, middle) ∧
      (next a).outcome middle = (.ok b, after) := by
  rcases first : work.outcome before with ⟨result, middle⟩
  cases result with
  | error failure =>
    rw [outcome_bind_error first] at done
    cases done
  | ok a =>
    rw [outcome_bind first] at done
    exact ⟨a, middle, rfl, done⟩

theorem outcome_lift {ε α : Type} {wrap : ε → Failure} {a : α} (session : Session) :
    (lift wrap (.ok a)).outcome session = (.ok a, session) := rfl

theorem of_outcome_lift {ε α : Type} {wrap : ε → Failure} {x : Except ε α} {a : α}
    {before after : Session} (done : (lift wrap x).outcome before = (.ok a, after)) :
    x = .ok a ∧ before = after := by
  cases x with
  | error e => cases done
  | ok b =>
    cases done
    exact ⟨rfl, rfl⟩

/-- Finds the rule that is meant by a source. -/
def ruleOf (given : Option Limits) : RuleSource → Work Rule
  | .text t => readRule given (.str t)
  | .rule r => pure r

/-- A source of a valid rule is resolved to its schedule. Besides that the rule is
read, nothing of it shows in the session. -/
theorem outcome_resolve_of_ruleOf {given : Option Limits} {source : RuleSource} {r : Rule}
    {before after : Session} (found : (ruleOf given source).outcome before = (.ok r, after))
    {start : Datum} {moment : Timestamp} {schedule : Schedule}
    (begun : readStart start = .ok moment) (made : r.toSchedule = .ok schedule)
    (valid : r.validate (.moment moment) = .ok ()) :
    (resolve given source start).outcome before = (.ok (schedule, moment), after) := by
  have checked : (validate r (.moment moment)).outcome after = (.ok (), after) := by
    unfold validate
    rw [valid]
    rfl
  have parts : resolve given source start = do
      let rule ← ruleOf given source
      let moment ← lift Failure.objection (readStart start)
      validate rule (.moment moment)
      return (← toSchedule rule, moment) := by
    cases source <;> rfl
  rw [parts, outcome_bind found, begun, outcome_bind (outcome_lift after), outcome_bind checked,
    Work.toSchedule, made, outcome_bind (outcome_lift after)]
  rfl

/-- A valid rule is resolved to its schedule without a trace in the session. -/
theorem outcome_resolve {r : Rule} {start : Datum} {moment : Timestamp} {schedule : Schedule}
    (begun : readStart start = .ok moment) (made : r.toSchedule = .ok schedule)
    (valid : r.validate start = .ok ()) (given : Option Limits) (session : Session) :
    (resolve given (.rule r) start).outcome session = (.ok (schedule, moment), session) :=
  outcome_resolve_of_ruleOf rfl begun made ((Rule.validate_iff_of_readStart begun).mpr valid)

/-- The occurrences of a source are those that its rule has under the same limits. -/
theorem outcome_generate_of_ruleOf {given : Option Limits} {limits : Limits} {source : RuleSource}
    {r : Rule} {before middle after : Session}
    (loaded : (limitsOr given).outcome before = (.ok limits, middle))
    (found : (ruleOf (some limits) source).outcome middle = (.ok r, after))
    {start : Datum} {moment : Timestamp} {schedule : Schedule}
    (begun : readStart start = .ok moment) (made : r.toSchedule = .ok schedule)
    (valid : r.validate start = .ok ()) (query : Query) :
    (generate given source start query).outcome before =
      (.ok (query.answer schedule moment limits), after) := by
  have resolved := outcome_resolve_of_ruleOf found begun made ((Rule.validate_iff_of_readStart begun).mpr valid)
  unfold generate
  rw [outcome_bind loaded, outcome_bind resolved]
  rfl

theorem outcome_generate {r : Rule} {start : Datum} {moment : Timestamp} {schedule : Schedule}
    (begun : readStart start = .ok moment) (made : r.toSchedule = .ok schedule)
    (valid : r.validate start = .ok ()) {given : Option Limits} {limits : Limits}
    {before after : Session} (loaded : (limitsOr given).outcome before = (.ok limits, after))
    (query : Query) :
    (generate given (.rule r) start query).outcome before =
      (.ok (query.answer schedule moment limits), after) :=
  outcome_generate_of_ruleOf loaded rfl begun made valid query

end Work

end Recurrence
