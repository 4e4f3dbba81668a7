import Recurrence.Proofs.Rule.Typed
import Recurrence.Proofs.Schedule.Ranges
import Recurrence.Proofs.Schedule.Soundness

namespace Recurrence

namespace Schedule

/-- A schedule that is made of a draft has its interval and its lists, apart from
the weekdays. -/
theorem of_construct {d : Draft} {s : Schedule} (made : construct d = .ok s) :
    checkInterval d = .ok () ∧
      ∀ part, part ≠ .weekday → itemsOf (d (.list part)) = .ok (s.values part) := by
  unfold construct at made
  obtain ⟨_, _, made⟩ := Outcome.bind_eq_ok.mp made
  obtain ⟨_, _, made⟩ := Outcome.bind_eq_ok.mp made
  obtain ⟨interval, made⟩ := Outcome.then_eq_ok.mp made
  obtain ⟨months, atMonths, made⟩ := Outcome.bind_eq_ok.mp made
  obtain ⟨_, made⟩ := Outcome.then_eq_ok.mp made
  obtain ⟨_, _, made⟩ := Outcome.bind_eq_ok.mp made
  obtain ⟨weekdays, _, made⟩ := Outcome.bind_eq_ok.mp made
  obtain ⟨ends, _, made⟩ := Outcome.bind_eq_ok.mp made
  obtain ⟨setPositions, atSetPositions, made⟩ := Outcome.bind_eq_ok.mp made
  obtain ⟨monthDays, atMonthDays, made⟩ := Outcome.bind_eq_ok.mp made
  obtain ⟨yearDays, atYearDays, made⟩ := Outcome.bind_eq_ok.mp made
  obtain ⟨weekNumbers, atWeekNumbers, made⟩ := Outcome.bind_eq_ok.mp made
  obtain ⟨hours, atHours, made⟩ := Outcome.bind_eq_ok.mp made
  obtain ⟨minutes, atMinutes, made⟩ := Outcome.bind_eq_ok.mp made
  obtain ⟨seconds, atSeconds, made⟩ := Outcome.bind_eq_ok.mp made
  cases Outcome.pure_eq_ok.mp made
  refine ⟨interval, fun part numeric => ?_⟩
  cases part with
  | weekday => exact absurd rfl numeric
  | _ => assumption

end Schedule

/-- Whether an objection is about one value of a rule: not about the start, and not about
values that do not fit together. -/
def Objection.isOfValue : Objection → Bool
  | .invalidStart _ | .refused _ => false
  | _ => true

namespace Rule

/-- Whether the diagnostic is about the interval of the rule, which is an integer and
too great. -/
def RefusesInterval (r : Rule) (diagnostic : Diagnostic) : Prop :=
  ∃ n : Int, r.interval = .int n ∧ Schedule.maxInterval < n ∧ diagnostic = .invalidInterval (.int n)

variable {r : Rule} {schedule : Schedule}

/-- The schedule of a rule passes the check of its ranges. -/
theorem Settles.checkRanges (settles : r.Settles schedule) : schedule.checkRanges = .ok () := by
  refine (Schedule.checkRanges_ok_iff fun part numeric d member => ?_).mpr settles.numbers
  cases range : part.range? with
  | none =>
    cases part with
    | weekday => exact absurd rfl numeric
    | _ => cases range
  | some bounds =>
    obtain ⟨low, high, zeroAllowed⟩ := bounds
    obtain ⟨n, isInt, _⟩ := settles.numbers part low high zeroAllowed range d member
    exact ⟨n, isInt⟩

/-- The months of a settled schedule are those of a year, whose lengths are known. -/
theorem Settles.months_found (settles : r.Settles schedule) {d : Datum}
    (member : d ∈ schedule.months) : ∃ month, d.toMonth? = some month := by
  obtain ⟨n, rfl, low, high, _⟩ := settles.numbers .month _ _ _ rfl d member
  exact ⟨_, Datum.toMonth?_int low high⟩

/-- The schedule of a typed rule is the one made of its values as they are, whose
ranges then hold. -/
theorem IsTyped.toSchedule_ok_iff (typed : r.IsTyped) :
    r.toSchedule = .ok schedule ↔
      (r.count = .none ∨ ∃ n : Int, r.count = .int n ∧ 0 ≤ n) ∧
        Schedule.construct r.draft = .ok schedule ∧ schedule.checkRanges = .ok () := by
  obtain ⟨f, frequency⟩ := typed.frequency
  obtain ⟨day, weekStart⟩ := typed.weekStart
  have sameDraft := IsTyped.settledDraft frequency weekStart
  constructor
  · intro found
    have settles := Rule.toSchedule_ok_iff.mp found
    unfold toSchedule at found
    obtain ⟨draft, settled, made⟩ := Outcome.bind_eq_ok.mp found
    obtain ⟨g, start, choices, named, _, count, begun, read, _, _, rfl⟩ :=
      settle_ok_iff.mp (Outcome.mapError_eq_ok.mp settled)
    rw [frequency] at named
    rw [weekStart] at begun
    rw [typed.readChoices] at read
    cases named
    cases begun
    cases read
    rw [sameDraft] at made
    exact ⟨count, Outcome.mapError_eq_ok.mp made, settles.checkRanges⟩
  · rintro ⟨count, made, ranges⟩
    obtain ⟨interval, lists⟩ := Schedule.of_construct made
    have sameValues (part : ListPart) (numeric : part ≠ .weekday) :
        schedule.values part = r.values part := by
      have items : Except.ok (r.values part) = _ := lists part numeric
      exact (Except.ok.inj items).symm
    have positive : ∃ n : Int, r.interval = .int n ∧ 1 ≤ n := by
      obtain ⟨n, isInt⟩ := typed.interval
      have checked : Schedule.checkInterval r.draft = .ok () := interval
      have offered : r.draft .interval = .int n := isInt
      simp only [Schedule.checkInterval, offered, Datum.asIntOrBool?] at checked
      split at checked
      · rename_i bounds
        exact ⟨n, isInt, bounds.1⟩
      · cases checked
    have checked (part : ListPart) : r.checkPart part = .ok () := by
      cases range : part.range? with
      | none =>
        cases part with
        | weekday => rfl
        | _ => cases range
      | some bounds =>
        obtain ⟨low, high, zeroAllowed⟩ := bounds
        have numeric : part ≠ .weekday := by
          rintro rfl
          cases range
        rw [checkPart_ok_iff range, ← sameValues part numeric]
        refine (Schedule.checkRanges_ok_iff fun part numeric => ?_).mp ranges part _ _ _ range
        rw [sameValues part numeric]
        exact typed.numbers part numeric
    have settled : r.settle = .ok r.draft := settle_ok_iff.mpr ⟨f, day, r.weekdays,
      by rw [frequency]; rfl, positive, count, by rw [weekStart]; rfl, typed.readChoices, checked,
      typed.ends, sameDraft.symm⟩
    unfold toSchedule
    rw [settled]
    exact Outcome.mapError_eq_ok.mpr made

theorem isOfValue_of_checkPart {part : ListPart} {cause : Objection}
    (failed : r.checkPart part = .error cause) : cause.isOfValue = true := by
  unfold checkPart at failed
  split at failed
  · split at failed
    · cases failed
      rfl
    · cases failed
  · split at failed
    · cases failed
      rfl
    · cases failed
  · cases failed

theorem isOfValue_of_readChoice {d : Datum} {cause : Objection}
    (failed : readChoice d = .error cause) : cause.isOfValue = true := by
  unfold readChoice at failed
  dsimp only at failed
  split at failed
  · cases failed
    rfl
  · split at failed
    · cases failed
    · cases failed
    · cases failed
      rfl

/-- Settling looks at one value at a time. -/
theorem isOfValue_of_settle {cause : Objection} (failed : r.settle = .error cause) :
    cause.isOfValue = true := by
  unfold settle at failed
  obtain failed | ⟨_, _, failed⟩ := Outcome.bind_eq_error.mp failed
  · obtain ⟨_, _, rfl⟩ := Outcome.mapError_eq_error.mp failed
    rfl
  obtain failed | ⟨_, _, failed⟩ := Outcome.bind_eq_error.mp failed
  · unfold checkInterval at failed
    split at failed
    · split at failed
      · cases failed
        rfl
      · cases failed
    · cases failed
      rfl
  obtain failed | ⟨_, _, failed⟩ := Outcome.bind_eq_error.mp failed
  · unfold checkCount at failed
    split at failed
    · cases failed
    · split at failed
      · cases failed
        rfl
      · cases failed
    · cases failed
      rfl
  obtain failed | ⟨_, _, failed⟩ := Outcome.bind_eq_error.mp failed
  · obtain ⟨_, _, rfl⟩ := Outcome.mapError_eq_error.mp failed
    rfl
  obtain failed | ⟨_, _, failed⟩ := Outcome.bind_eq_error.mp failed
  · exact isOfValue_of_checkPart failed
  obtain failed | ⟨_, _, failed⟩ := Outcome.bind_eq_error.mp failed
  · rw [readChoices_eq] at failed
    obtain ⟨_, d, _, _, _, failed⟩ := Outcome.mapM_eq_error_iff.mp failed
    exact isOfValue_of_readChoice failed
  obtain failed | ⟨_, _, failed⟩ := Outcome.bind_eq_error.mp failed
  · obtain ⟨part, _, failed⟩ := Outcome.exists_of_forM_eq_error failed
    exact isOfValue_of_checkPart failed
  obtain failed | ⟨_, _, failed⟩ := Outcome.bind_eq_error.mp failed
  · unfold checkEnd at failed
    split at failed
    · cases failed
    · cases failed
    · cases failed
      rfl
  · cases failed

/-- Once its values settle, a rule has a schedule unless its interval is too great. -/
theorem toSchedule_of_settle {draft : Draft} (settled : r.settle = .ok draft) :
    ∃ n : Int, r.interval = .int n ∧
      (n ≤ Schedule.maxInterval ∧ (∃ schedule, r.toSchedule = .ok schedule) ∨
        Schedule.maxInterval < n ∧
          r.toSchedule = .error (.objection (.refused (.invalidInterval (.int n))))) := by
  obtain ⟨f, day, choices, named, ⟨n, isInt, positive⟩, count, begun, read, checked, kept, rfl⟩ :=
    settle_ok_iff.mp settled
  refine ⟨n, isInt, ?_⟩
  unfold toSchedule
  rw [settled]
  change (n ≤ _ ∧ ∃ schedule, (Schedule.construct _).mapError _ = .ok schedule) ∨
    (_ < n ∧ (Schedule.construct _).mapError _ = _)
  rcases Int.lt_or_le Schedule.maxInterval n with great | fits
  · refine .inr ⟨great, ?_⟩
    have offered : r.settledDraft f day choices .interval = .int n := isInt
    have refused : Schedule.checkInterval (r.settledDraft f day choices) =
        .error (.diagnostic (.invalidInterval (.int n))) := by
      simp only [Schedule.checkInterval, offered, Datum.asIntOrBool?]
      rw [if_neg (by omega)]
    unfold Schedule.construct
    rw [refused]
    rfl
  · obtain ⟨weekdays, rfl, _⟩ := readChoices_toDatum read
    obtain ⟨ends, ending⟩ : ∃ ends, Schedule.readEnd r.ends = .ok ends := by
      rcases kept with missing | ⟨t, isMoment⟩
      · exact ⟨none, (readEnd_ok_iff (.inl missing)).mpr missing⟩
      · exact ⟨some t, (readEnd_ok_iff (.inr ⟨t, isMoment⟩)).mpr isMoment⟩
    have made : Schedule.construct (r.settledDraft f day (weekdays.map DayChoice.toDatum)) =
        .ok (r.scheduleWith f day ends weekdays) :=
      construct_settledDraft isInt positive fits (checked .month) ending
    exact .inl ⟨fits, _, Outcome.mapError_eq_ok.mpr made⟩

/-- A rule whose values settle is refused a schedule only for an interval that is
too great. -/
theorem toSchedule_refused_iff {diagnostic : Diagnostic} :
    r.toSchedule = .error (.objection (.refused diagnostic)) ↔
      (∃ draft, r.settle = .ok draft) ∧ r.RefusesInterval diagnostic := by
  constructor
  · intro failed
    have settled : ∃ draft, r.settle = .ok draft := by
      unfold toSchedule at failed
      obtain failed | ⟨draft, settled, _⟩ := Outcome.bind_eq_error.mp failed
      · obtain ⟨cause, failed, same⟩ := Outcome.mapError_eq_error.mp failed
        cases same
        exact absurd (isOfValue_of_settle failed) Bool.false_ne_true
      · exact ⟨draft, Outcome.mapError_eq_ok.mp settled⟩
    refine ⟨settled, ?_⟩
    obtain ⟨draft, settled⟩ := settled
    obtain ⟨n, isInt, ⟨_, schedule, made⟩ | ⟨great, refused⟩⟩ := toSchedule_of_settle settled
    · rw [made] at failed
      cases failed
    · rw [refused] at failed
      cases failed
      exact ⟨n, isInt, great, rfl⟩
  · rintro ⟨⟨draft, settled⟩, n, isInt, great, rfl⟩
    obtain ⟨m, same, ⟨fits, _⟩ | ⟨_, refused⟩⟩ := toSchedule_of_settle settled
    · cases isInt.symm.trans same
      omega
    · cases isInt.symm.trans same
      exact refused

/-- A rule is refused as a whole for an interval that is too great, or for values
that do not fit together: never for the range of a value. -/
theorem of_validate_refused {start : Datum} {diagnostic : Diagnostic}
    (failed : r.validate start = .error (.objection (.refused diagnostic))) :
    diagnostic.isJoint = true ∨ r.RefusesInterval diagnostic := by
  unfold validate at failed
  obtain failed | ⟨moment, _, failed⟩ := Outcome.bind_eq_error.mp failed
  · obtain ⟨cause, failed, same⟩ := Outcome.mapError_eq_error.mp failed
    cases same
    unfold readStart at failed
    split at failed
    · cases failed
    · split at failed <;> cases failed
  obtain failed | ⟨schedule, made, failed⟩ := Outcome.bind_eq_error.mp failed
  · exact .inr (toSchedule_refused_iff.mp failed).2
  · obtain ⟨refusal, failed, same⟩ := Outcome.mapError_eq_error.mp failed
    cases refusal with
    | fault cause => cases same
    | diagnostic cause =>
      cases same
      exact .inl (Schedule.isJoint_of_check (Rule.toSchedule_ok_iff.mp made).checkRanges failed)

/-- The checks of a rule and those of its schedule describe the same rules. A typed
rule is valid from a moment on just when its count is not negative, a schedule is
made of its values as they are, and this passes its check; the rule then has that
schedule. The numbers of any schedule that a rule has are integers of their ranges,
so that its own check of them, the first of its checks, never fails; and of the
checks made along with a schedule only that of the interval can fail, for one that
is too great. -/
theorem validate_iff_construct_check (r : Rule) :
    (r.IsTyped →
      (∀ start : Timestamp, start.isAware = true →
        (r.validate (.moment start) = .ok () ↔
          (r.count = .none ∨ ∃ n : Int, r.count = .int n ∧ 0 ≤ n) ∧
            ∃ schedule, Schedule.construct r.draft = .ok schedule ∧
              schedule.check start = .ok ())) ∧
      ∀ schedule, r.toSchedule = .ok schedule → Schedule.construct r.draft = .ok schedule) ∧
    (∀ schedule, r.toSchedule = .ok schedule → schedule.IsRanged ∧ schedule.checkRanges = .ok ()) ∧
    (∀ start diagnostic, r.validate start = .error (.objection (.refused diagnostic)) →
      diagnostic.isJoint = true ∨ r.RefusesInterval diagnostic) ∧
    ∀ diagnostic, r.toSchedule = .error (.objection (.refused diagnostic)) ↔
      (∃ draft, r.settle = .ok draft) ∧ r.RefusesInterval diagnostic := by
  refine ⟨fun typed => ⟨fun start aware => ?_, fun schedule found => ?_⟩, fun schedule found => ?_,
    fun start diagnostic => of_validate_refused, fun diagnostic => toSchedule_refused_iff⟩
  · have begun : readStart (.moment start) = .ok start := by
      obtain ⟨seconds, micros, offset, _, _⟩ := start
      cases offset with
      | none => cases aware
      | some offset => rfl
    constructor
    · intro valid
      obtain ⟨moment, schedule, read, settles, checked⟩ := validate_ok_iff.mp valid
      cases begun.symm.trans read
      obtain ⟨count, made, _⟩ := typed.toSchedule_ok_iff.mp (Rule.toSchedule_ok_iff.mpr settles)
      exact ⟨count, schedule, made, checked⟩
    · rintro ⟨count, schedule, made, checked⟩
      have ranges : schedule.checkRanges = .ok () := by
        unfold Schedule.check at checked
        exact (Outcome.then_eq_ok.mp checked).1
      have found := typed.toSchedule_ok_iff.mpr ⟨count, made, ranges⟩
      exact validate_ok_iff.mpr ⟨start, schedule, begun, Rule.toSchedule_ok_iff.mp found, checked⟩
  · exact (typed.toSchedule_ok_iff.mp found).2.1
  · have settles := Rule.toSchedule_ok_iff.mp found
    exact ⟨settles.numbers, settles.checkRanges⟩

/-- The Mondays of the fifty-third weeks from the end, in years that lie the greatest
interval apart: such a rule is valid, and with an interval that is greater by one it
is refused for that. -/
theorem validate_iff_construct_check_widest :
    let r (years : Int) := { bare (.frequency .yearly) with
      interval := .int years
      weekNumbers := [.int (-53)]
      weekdays := [.every (.weekday .monday)] }
    let start : Timestamp := ⟨63871750800, 500000, some 7200, by decide, by decide⟩
    (r 65535).IsTyped ∧ start.isAware = true ∧ (r 65535).validate (.moment start) = .ok () ∧
      (∃ schedule, Schedule.construct (r 65535).draft = .ok schedule ∧
        schedule.check start = .ok () ∧ schedule.IsRanged ∧ schedule.checkRanges = .ok ()) ∧
      (r 65536).toSchedule = .error (.objection (.refused (.invalidInterval (.int 65536)))) ∧
      (r 65536).validate (.moment start) =
        .error (.objection (.refused (.invalidInterval (.int 65536)))) := by
  intro r start
  have typed : (r 65535).IsTyped := by
    refine ⟨⟨_, rfl⟩, ⟨_, rfl⟩, .inl rfl, .inl rfl, ⟨_, rfl⟩, fun d member => ?_, fun part numeric d member => ?_⟩
    · rw [List.mem_singleton.mp member]
      exact .inl ⟨.monday, rfl⟩
    · cases part with
      | weekNumber =>
        rw [List.mem_singleton.mp member]
        exact ⟨-53, rfl⟩
      | weekday => exact absurd rfl numeric
      | _ => cases member
  have valid : (r 65535).validate (.moment start) = .ok () := rfl
  obtain ⟨agree, ranged, _, _⟩ := validate_iff_construct_check (r 65535)
  obtain ⟨schedule, found⟩ : ∃ schedule, (r 65535).toSchedule = .ok schedule := ⟨_, rfl⟩
  have made := (agree typed).2 schedule found
  obtain ⟨_, other, same, checked⟩ := ((agree typed).1 start rfl).mp valid
  cases same.symm.trans made
  have refused := ((validate_iff_construct_check (r 65536)).2.2.2 (.invalidInterval (.int 65536))).mpr
    ⟨⟨_, rfl⟩, 65536, rfl, by decide, rfl⟩
  exact ⟨typed, rfl, valid, ⟨schedule, made, checked, ranged schedule found⟩, refused, rfl⟩

end Rule

end Recurrence
