import Recurrence.Problem.Validation
import Recurrence.Proofs.Rule.Layers
import Recurrence.Proofs.Schedule.Checks
import Recurrence.Proofs.Session.Resolution

namespace Recurrence

/-- Whether a value is a start: a moment, or a text that is read as a timestamp. -/
def Datum.IsStart (d : Datum) : Prop :=
  (∃ t, d = .moment t) ∨ ∃ text t, d.asText? = some text ∧ Timestamp.read text = .ok t

theorem readStart_of_isStart {d : Datum} (isStart : d.IsStart) : ∃ moment, readStart d = .ok moment := by
  rcases isStart with ⟨t, rfl⟩ | ⟨text, t, isText, read⟩
  · exact ⟨t.aware, rfl⟩
  · refine ⟨t, ?_⟩
    unfold readStart
    split
    · cases isText
    · rw [isText, Option.map_some, read]

theorem readStart_of_not_isStart {d : Datum} (other : ¬d.IsStart) :
    readStart d = .error (.invalidStart d) := by
  unfold readStart
  split
  · exact absurd (.inl ⟨_, rfl⟩) other
  · split
    · rename_i t found
      obtain ⟨text, isText, read⟩ := Option.map_eq_some_iff.mp found
      exact absurd (.inr ⟨text, t, isText, read⟩) other
    · rfl

/-- Whatever is wrong with a rule or its start, the objection is a validation error. -/
theorem Objection.validationError_mem_kinds (cause : Objection) :
    "ValidationError" ∈ cause.problem.kinds := by
  cases cause <;> exact List.mem_append_right _ (List.mem_cons_self ..)

namespace Rule

variable {r : Rule} {schedule : Schedule}

/-- The check of a settled schedule can look at all of its values. -/
theorem Settles.check_ne_fault (settles : r.Settles schedule) (start : Timestamp) (cause : Fault) :
    schedule.check start ≠ .error (.fault cause) := by
  refine Schedule.check_ne_fault settles.checkRanges (fun ordinal day => settles.ordinal) ?_
    (fun d => settles.months_found) cause
  intro d member
  obtain ⟨n, isInt, _⟩ := settles.numbers .monthDay _ _ _ rfl d member
  exact ⟨n, isInt⟩

/-- A rule that has no schedule meets with an objection, which is not about the start. -/
theorem exists_objection_of_toSchedule {rejection : Rejection}
    (failed : r.toSchedule = .error rejection) :
    ∃ cause, rejection = .objection cause ∧ ∀ value, cause ≠ .invalidStart value := by
  cases settled : r.settle with
  | error cause =>
    unfold toSchedule at failed
    rw [settled] at failed
    cases failed
    refine ⟨cause, rfl, ?_⟩
    rintro value rfl
    exact Bool.false_ne_true (isOfValue_of_settle settled)
  | ok draft =>
    obtain ⟨n, _, ⟨_, _, made⟩ | ⟨_, refused⟩⟩ := toSchedule_of_settle settled
    · rw [made] at failed
      cases failed
    · rw [refused] at failed
      cases failed
      exact ⟨_, rfl, fun _ same => nomatch same⟩

/-- A validation that fails ends in an objection, and the one to the start is made just when
there is none. -/
theorem exists_objection_of_validate {start : Datum} {rejection : Rejection}
    (failed : r.validate start = .error rejection) :
    ∃ cause, rejection = .objection cause ∧ (cause = .invalidStart start ↔ ¬start.IsStart) := by
  by_cases isStart : start.IsStart
  · obtain ⟨moment, begun⟩ := readStart_of_isStart isStart
    unfold validate at failed
    rw [begun] at failed
    change (r.toSchedule >>= fun schedule => (schedule.check moment).mapError _) = _ at failed
    obtain failed | ⟨schedule, made, failed⟩ := Outcome.bind_eq_error.mp failed
    · obtain ⟨cause, rfl, other⟩ := exists_objection_of_toSchedule failed
      exact ⟨cause, rfl, iff_of_false (other start) (not_not.mpr isStart)⟩
    · obtain ⟨refusal, found, rfl⟩ := Outcome.mapError_eq_error.mp failed
      cases refusal with
      | fault cause =>
        exact absurd found ((Rule.toSchedule_ok_iff.mp made).check_ne_fault moment cause)
      | diagnostic diagnostic =>
        exact ⟨_, rfl, iff_of_false (fun same => nomatch same) (not_not.mpr isStart)⟩
  · -- the start is read before anything else, so that the rule is not looked at
    unfold validate at failed
    rw [readStart_of_not_isStart isStart] at failed
    cases failed
    exact ⟨_, rfl, iff_of_true rfl isStart⟩

theorem isStart_of_validate {start : Datum} (valid : r.validate start = .ok ()) : start.IsStart := by
  by_contra other
  unfold validate at valid
  rw [readStart_of_not_isStart other] at valid
  cases valid

end Rule

namespace Work

variable {r : Rule} {start : Datum}

theorem outcome_validate_ok (valid : r.validate start = .ok ()) (session : Session) :
    (validate r start).outcome session = (.ok (), session) ∧
      (isValid r start).outcome session = (.ok true, session) := by
  unfold isValid validate
  rw [valid]
  exact ⟨rfl, rfl⟩

theorem outcome_validate_objection {cause : Objection}
    (refused : r.validate start = .error (.objection cause)) (session : Session) :
    let noted := { session with events := .ruleNotValid cause :: session.events }
    (validate r start).outcome session = (.error (.objection cause), noted) ∧
      (isValid r start).outcome session = (.ok false, noted) := by
  unfold isValid validate
  rw [refused]
  exact ⟨rfl, rfl⟩

/-- Validation has a verdict on every rule and every start, whatever values they are made of:
it succeeds without a trace, or it fails with a validation error and notes that. Whether a
rule is valid is then always a truth value. The months that are looked at along with the days
are all known, so that their lengths are. The objection to the start is made just when this is
neither a moment nor a text that is read as one, whatever the rule is. -/
theorem validate_decides (r : Rule) (start : Datum) (session : Session) :
    ((validate r start).outcome session = (.ok (), session) ∧
        (isValid r start).outcome session = (.ok true, session) ∧ r.isValid start = .ok true ∨
      ∃ cause : Objection, "ValidationError" ∈ cause.problem.kinds ∧
        let noted := { session with events := .ruleNotValid cause :: session.events }
        (validate r start).outcome session = (.error (.objection cause), noted) ∧
          (isValid r start).outcome session = (.ok false, noted) ∧ r.isValid start = .ok false) ∧
    (∀ schedule, r.toSchedule = .ok schedule →
      ∀ d ∈ schedule.months, ∃ month, d.toMonth? = some month) ∧
    (((validate r start).outcome session).1 = .error (.objection (.invalidStart start)) ↔
      ¬start.IsStart) := by
  have months : ∀ schedule, r.toSchedule = .ok schedule →
      ∀ d ∈ schedule.months, ∃ month, d.toMonth? = some month :=
    fun schedule made d member => (Rule.toSchedule_ok_iff.mp made).months_found member
  cases verdict : r.validate start with
  | ok done =>
    obtain ⟨validated, answered⟩ := outcome_validate_ok verdict session
    have isStart := Rule.isStart_of_validate verdict
    refine ⟨.inl ⟨validated, answered, ?_⟩, months, ?_⟩
    · unfold Rule.isValid
      rw [verdict]
    · rw [validated]
      exact iff_of_false (fun failed => nomatch failed) (not_not.mpr isStart)
  | error rejection =>
    obtain ⟨cause, rfl, aboutStart⟩ := Rule.exists_objection_of_validate verdict
    obtain ⟨validated, answered⟩ := outcome_validate_objection verdict session
    refine ⟨.inr ⟨cause, cause.validationError_mem_kinds, validated, answered, ?_⟩, months, ?_⟩
    · unfold Rule.isValid
      rw [verdict]
    · rw [validated, ← aboutStart]
      simp only [Except.error.injEq, Failure.objection.injEq]

/-- Fridays that are the thirtieth of February, as far as the rule goes: its values make sense
one by one and it is not valid. A list with a timestamp in it is no start. -/
theorem validate_decides_februaryEnd :
    let r : Rule := { Rule.bare (.ofString " monthly") with
      months := [.int 2]
      monthDays := [.int 30, .int (-31)]
      weekdays := [.tuple [.none, .ofString "friday"]] }
    let start := Datum.ofString "2024-01-01T00:00:00Z"
    (∃ schedule, r.toSchedule = .ok schedule ∧
        ∀ d ∈ schedule.months, ∃ month, d.toMonth? = some month) ∧
      start.IsStart ∧ ((isValid r start).outcome {}).1 = .ok false ∧
      ¬(Datum.list [start]).IsStart ∧ ((validate r (.list [start])).outcome {}).1 =
        .error (.objection (.invalidStart (.list [start]))) := by
  intro r start
  obtain ⟨schedule, made⟩ : ∃ schedule, r.toSchedule = .ok schedule := ⟨_, rfl⟩
  have isStart : start.IsStart := .inr ⟨_, _, rfl, rfl⟩
  have refused : r.isValid start = .ok false := rfl
  have other : ¬(Datum.list [start]).IsStart := by
    rintro (⟨_, same⟩ | ⟨_, _, isText, _⟩)
    · cases same
    · cases isText
  obtain ⟨verdict, months, _⟩ := validate_decides r start {}
  refine ⟨⟨schedule, made, months schedule made⟩, isStart, ?_, other,
    (validate_decides r (.list [start]) {}).2.2.mpr other⟩
  obtain ⟨_, _, valid⟩ | ⟨_, _, _, answered, _⟩ := verdict
  · cases refused.symm.trans valid
  · rw [answered]

end Work

end Recurrence
