import Recurrence.Proofs.Calendar.TimestampParts
import Recurrence.Proofs.Outcome
import Recurrence.Validation.Basic

namespace Recurrence

theorem Datum.toMonth?_int {n : Int} (low : 1 ≤ n) (high : n ≤ 12) :
    (Datum.int n).toMonth? = some n.toNat := by
  have cases : n = 1 ∨ n = 2 ∨ n = 3 ∨ n = 4 ∨ n = 5 ∨ n = 6 ∨ n = 7 ∨ n = 8 ∨ n = 9 ∨
      n = 10 ∨ n = 11 ∨ n = 12 := by omega
  rcases cases with rfl | rfl | rfl | rfl | rfl | rfl | rfl | rfl | rfl | rfl | rfl | rfl <;> rfl

theorem Schedule.readChoices_map_toDatum (choices : List DayChoice) :
    readChoices (choices.map DayChoice.toDatum) = .ok choices := by
  induction choices with
  | nil => rfl
  | cons choice choices ih =>
    rw [List.map_cons, readChoices, DayChoice.ofDatum?_toDatum]
    dsimp only
    rw [ih]
    rfl

namespace Rule

/-- What a rule must be like so that its values settle to a schedule, and which
schedule that is. -/
structure Settles (r : Rule) (schedule : Schedule) : Prop where
  frequency : r.frequency.toFrequency = .ok schedule.frequency
  sameInterval : schedule.interval = r.interval
  interval : ∃ n : Int, r.interval = .int n ∧ 1 ≤ n ∧ n ≤ Schedule.maxInterval
  sameCount : schedule.count = r.count
  count : r.count = .none ∨ ∃ n : Int, r.count = .int n ∧ 0 ≤ n
  ends : r.ends = schedule.ends.elim .none Datum.moment
  weekStart : r.weekStart.toWeekday = .ok schedule.weekStart
  weekdays : readChoices r.weekdays = .ok (schedule.weekdays.map DayChoice.toDatum)
  sameValues : ∀ part, part ≠ .weekday → schedule.values part = r.values part
  inRange : ∀ part, r.checkPart part = .ok ()

/-- A rule has an end just when its schedule has one. -/
theorem Settles.endless_iff {r : Rule} {schedule : Schedule} (settles : r.Settles schedule) :
    r.ends = .none ↔ schedule.ends = none := by
  rw [settles.ends]
  cases schedule.ends <;> simp

theorem readChoice_toDatum {d choice : Datum} (read : readChoice d = .ok choice) :
    ∃ settled : DayChoice, choice = settled.toDatum ∧
      ∀ ordinal day, settled = .nth ordinal day → ∃ n, ordinal = .int n := by
  unfold readChoice at read
  dsimp only at read
  split at read
  · cases read
  · rename_i day _
    split at read
    · cases read
      exact ⟨.every day, rfl, fun _ _ same => nomatch same⟩
    · rename_i n _
      cases read
      refine ⟨.nth (.int n) day, rfl, fun ordinal other same => ?_⟩
      cases same
      exact ⟨n, rfl⟩
    · cases read

theorem readChoices_eq (values : List Datum) : readChoices values = values.mapM readChoice := by
  induction values with
  | nil => rfl
  | cons value values ih =>
    rw [readChoices, List.mapM_cons, ih]

/-- Weekday choices that are read are choices of a schedule as values, whose
ordinals are integers. -/
theorem readChoices_toDatum {values choices : List Datum} (read : readChoices values = .ok choices) :
    ∃ settled : List DayChoice, choices = settled.map DayChoice.toDatum ∧
      ∀ ordinal day, .nth ordinal day ∈ settled → ∃ n, ordinal = .int n := by
  induction values generalizing choices with
  | nil =>
    cases read
    exact ⟨[], rfl, fun _ _ member => nomatch member⟩
  | cons value values ih =>
    unfold readChoices at read
    obtain ⟨choice, first, read⟩ := Outcome.bind_eq_ok.mp read
    obtain ⟨rest, later, read⟩ := Outcome.bind_eq_ok.mp read
    cases read
    obtain ⟨settled, rfl, ordinal⟩ := readChoice_toDatum first
    obtain ⟨others, rfl, ordinals⟩ := ih later
    refine ⟨settled :: others, rfl, fun n day member => ?_⟩
    rcases List.mem_cons.mp member with same | member
    · exact ordinal n day same.symm
    · exact ordinals n day member

theorem isInRange_iff {low high : Int} {zeroAllowed : Bool} {d : Datum} :
    isInRange low high zeroAllowed d = true ↔
      ∃ n : Int, d = .int n ∧ low ≤ n ∧ n ≤ high ∧ (n ≠ 0 ∨ zeroAllowed = true) := by
  cases d with
  | int n =>
    simp only [isInRange, Datum.asInt?, Bool.and_eq_true, Bool.or_eq_true, decide_eq_true_eq,
      bne_iff_ne, Datum.int.injEq, exists_eq_left', and_assoc]
  | _ => simp [isInRange, Datum.asInt?]

/-- A list part passes its check when all of its values are integers of its range. -/
theorem checkPart_ok_iff {r : Rule} {part : ListPart} {low high : Int} {zeroAllowed : Bool}
    (range : part.range? = some (low, high, zeroAllowed)) :
    r.checkPart part = .ok () ↔
      ∀ d ∈ r.values part, ∃ n : Int, d = .int n ∧ low ≤ n ∧ n ≤ high ∧
        (n ≠ 0 ∨ zeroAllowed = true) := by
  have found (values : List Datum) :
      values.find? (fun d => !isInRange low high zeroAllowed d) = none ↔
        ∀ d ∈ values, ∃ n : Int, d = .int n ∧ low ≤ n ∧ n ≤ high ∧
          (n ≠ 0 ∨ zeroAllowed = true) := by
    simp only [List.find?_eq_none, Bool.not_eq_true', Bool.not_eq_false, isInRange_iff]
  rw [← found]
  unfold checkPart
  split
  · rename_i same
    rw [range] at same
    cases same
    change _ ↔ r.months.find? _ = none
    split <;> simp_all
  · rename_i same
    rw [range] at same
    cases same
    split <;> simp_all
  · rename_i missing
    rw [range] at missing
    cases missing

/-- A part passes its check when its values are among those of a part that does. -/
theorem checkPart_of_subset {r g : Rule} {part : ListPart} (inside : g.values part ⊆ r.values part)
    (checked : r.checkPart part = .ok ()) : g.checkPart part = .ok () := by
  cases range : part.range? with
  | none =>
    cases part with
    | weekday => rfl
    | _ => cases range
  | some bounds =>
    obtain ⟨low, high, zeroAllowed⟩ := bounds
    rw [checkPart_ok_iff range] at checked ⊢
    exact fun d member => checked d (inside member)

theorem readFrequency_ok_iff {r : Rule} {f : Frequency} :
    r.readFrequency = .ok f ↔ r.frequency.toFrequency = .ok f :=
  Outcome.mapError_eq_ok

theorem readWeekStart_ok_iff {r : Rule} {day : Weekday} :
    r.readWeekStart = .ok day ↔ r.weekStart.toWeekday = .ok day :=
  Outcome.mapError_eq_ok

theorem checkInterval_ok_iff {r : Rule} :
    r.checkInterval = .ok () ↔ ∃ n : Int, r.interval = .int n ∧ 1 ≤ n := by
  unfold checkInterval
  split
  · rename_i n isInt
    rw [isInt]
    simp
  · rename_i other
    simpa using fun n isInt => absurd isInt (other n)

theorem checkCount_ok_iff {r : Rule} :
    r.checkCount = .ok () ↔ r.count = .none ∨ ∃ n : Int, r.count = .int n ∧ 0 ≤ n := by
  unfold checkCount
  split
  · rename_i missing
    simp [missing]
  · rename_i n isInt
    rw [isInt]
    simp
  · rename_i present other
    refine iff_of_false (fun made => nomatch made) ?_
    rintro (missing | ⟨n, isInt, _⟩)
    · exact present missing
    · exact other n isInt

theorem checkEnd_ok_iff {r : Rule} :
    r.checkEnd = .ok () ↔ r.ends = .none ∨ ∃ t, r.ends = .moment t := by
  unfold checkEnd
  split
  · rename_i missing
    simp [missing]
  · rename_i t isMoment
    simp [isMoment]
  · rename_i present other
    refine iff_of_false (fun made => nomatch made) ?_
    rintro (missing | ⟨t, isMoment⟩)
    · exact present missing
    · exact other t isMoment

/-- The values of a rule with those parts that are read in place of what they are
read from. -/
def settledDraft (r : Rule) (frequency : Frequency) (weekStart : Weekday)
    (choices : List Datum) : Draft :=
  r.draft.setAll
    [(.frequency, .frequency frequency), (.weekStart, .weekday weekStart),
      (.list .weekday, .tuple choices)]

/-- The values of a rule settle when each of its parts makes sense by itself. -/
theorem settle_ok_iff {r : Rule} {draft : Draft} :
    r.settle = .ok draft ↔
      ∃ frequency weekStart choices,
        r.frequency.toFrequency = .ok frequency ∧
        (∃ n : Int, r.interval = .int n ∧ 1 ≤ n) ∧
        (r.count = .none ∨ ∃ n : Int, r.count = .int n ∧ 0 ≤ n) ∧
        r.weekStart.toWeekday = .ok weekStart ∧
        readChoices r.weekdays = .ok choices ∧
        (∀ part, r.checkPart part = .ok ()) ∧
        (r.ends = .none ∨ ∃ t, r.ends = .moment t) ∧
        draft = r.settledDraft frequency weekStart choices := by
  have every : (∀ part, r.checkPart part = .ok ()) ↔ r.checkPart .month = .ok () ∧
      ∀ part ∈ ListPart.all.filter fun part => part != .month, r.checkPart part = .ok () := by
    refine ⟨fun all => ⟨all _, fun part _ => all part⟩, fun ⟨month, others⟩ part => ?_⟩
    by_cases isMonth : part = .month
    · rw [isMonth]
      exact month
    · refine others part (List.mem_filter.mpr ⟨?_, by simpa using isMonth⟩)
      cases part <;> decide
  unfold settle
  constructor
  · intro made
    obtain ⟨f, known, made⟩ := Outcome.bind_eq_ok.mp made
    obtain ⟨interval, made⟩ := Outcome.then_eq_ok.mp made
    obtain ⟨count, made⟩ := Outcome.then_eq_ok.mp made
    obtain ⟨day, start, made⟩ := Outcome.bind_eq_ok.mp made
    obtain ⟨month, made⟩ := Outcome.then_eq_ok.mp made
    obtain ⟨choices, read, made⟩ := Outcome.bind_eq_ok.mp made
    obtain ⟨others, made⟩ := Outcome.then_eq_ok.mp made
    obtain ⟨ends, made⟩ := Outcome.then_eq_ok.mp made
    exact ⟨f, day, choices, readFrequency_ok_iff.mp known, checkInterval_ok_iff.mp interval,
      checkCount_ok_iff.mp count, readWeekStart_ok_iff.mp start, read,
      every.mpr ⟨month, Outcome.forM_eq_ok.mp others⟩, checkEnd_ok_iff.mp ends,
      (Outcome.pure_eq_ok.mp made).symm⟩
  · rintro ⟨f, day, choices, known, interval, count, start, read, checked, ends, rfl⟩
    obtain ⟨month, others⟩ := every.mp checked
    rw [readFrequency_ok_iff.mpr known, checkInterval_ok_iff.mpr interval,
      checkCount_ok_iff.mpr count, readWeekStart_ok_iff.mpr start, month, read,
      Outcome.forM_eq_ok.mpr others, checkEnd_ok_iff.mpr ends]
    rfl

theorem readEnd_ok_iff {r : Rule} {ends : Option Timestamp}
    (kept : r.ends = .none ∨ ∃ t, r.ends = .moment t) :
    Schedule.readEnd r.ends = .ok ends ↔ r.ends = ends.elim .none Datum.moment := by
  rcases kept with missing | ⟨t, isMoment⟩
  · rw [missing]
    cases ends with
    | none => exact ⟨fun _ => rfl, fun _ => rfl⟩
    | some t => exact ⟨fun read => (nomatch read), fun same => nomatch same⟩
  · have inUtc := Timestamp.toUtc?_of_isNormal (r.ends_normal t isMoment)
    rw [isMoment]
    simp only [Schedule.readEnd, inUtc, Except.ok.injEq]
    cases ends with
    | none => exact ⟨fun read => (nomatch read), fun same => nomatch same⟩
    | some u => simp

theorem checkMonths_of_checkPart {r : Rule} (checked : r.checkPart .month = .ok ()) :
    Schedule.checkMonths r.months = .ok () := by
  have inRange : ∀ d ∈ r.months, _ := (checkPart_ok_iff rfl).mp checked
  generalize r.months = months at inRange
  induction months with
  | nil => rfl
  | cons d months ih =>
    obtain ⟨n, rfl, low, high, _⟩ := inRange d (List.mem_cons_self ..)
    simp only [Schedule.checkMonths, Datum.collectable, Datum.toMonth?_int low high,
      Option.isNone_some]
    exact ih fun d member => inRange d (List.mem_cons_of_mem _ member)

/-- The schedule of a rule with the parts that are read and not taken over. -/
def scheduleWith (r : Rule) (frequency : Frequency) (weekStart : Weekday)
    (ends : Option Timestamp) (weekdays : List DayChoice) : Schedule where
  frequency := frequency
  interval := r.interval
  count := r.count
  ends := ends
  weekStart := weekStart
  setPositions := r.setPositions
  months := r.months
  monthDays := r.monthDays
  yearDays := r.yearDays
  weekNumbers := r.weekNumbers
  weekdays := weekdays
  hours := r.hours
  minutes := r.minutes
  seconds := r.seconds

theorem checkInterval_settledDraft {r : Rule} {n : Int} (interval : r.interval = .int n)
    (positive : 1 ≤ n) (frequency : Frequency) (weekStart : Weekday) (choices : List Datum) :
    Schedule.checkInterval (r.settledDraft frequency weekStart choices) = .ok () ↔
      n ≤ Schedule.maxInterval := by
  have offered : r.settledDraft frequency weekStart choices .interval = .int n := interval
  simp [Schedule.checkInterval, offered, Datum.asIntOrBool?, positive]

theorem construct_settledDraft {r : Rule} {frequency : Frequency} {weekStart : Weekday}
    {choices : List DayChoice} {ends : Option Timestamp} {n : Int} (interval : r.interval = .int n)
    (positive : 1 ≤ n) (bound : n ≤ Schedule.maxInterval) (months : r.checkPart .month = .ok ())
    (ending : Schedule.readEnd r.ends = .ok ends) :
    Schedule.construct (r.settledDraft frequency weekStart (choices.map DayChoice.toDatum)) =
      .ok (r.scheduleWith frequency weekStart ends choices) := by
  have fits : Schedule.checkInterval
      (r.settledDraft frequency weekStart (choices.map DayChoice.toDatum)) = .ok () :=
    (checkInterval_settledDraft interval positive ..).mpr bound
  have read : Schedule.readEnd
      (r.settledDraft frequency weekStart (choices.map DayChoice.toDatum) .ends) = .ok ends := ending
  unfold Schedule.construct
  rw [fits, read]
  change (do
    Schedule.checkMonths r.months
    let weekdays ← Schedule.readChoices (choices.map DayChoice.toDatum)
    return r.scheduleWith frequency weekStart ends weekdays) = _
  rw [checkMonths_of_checkPart months, Schedule.readChoices_map_toDatum]
  rfl

/-- A rule has a schedule exactly when its values settle to it. -/
theorem toSchedule_ok_iff {r : Rule} {schedule : Schedule} :
    r.toSchedule = .ok schedule ↔ r.Settles schedule := by
  unfold toSchedule
  simp only [Outcome.bind_eq_ok, Outcome.mapError_eq_ok, settle_ok_iff]
  constructor
  · rintro ⟨draft, ⟨f, day, choices, known, ⟨n, interval, positive⟩, count, start, read, checked, kept,
      rfl⟩, made⟩
    obtain ⟨settled, rfl, _⟩ := readChoices_toDatum read
    have ending : ∃ ends, Schedule.readEnd r.ends = .ok ends ∧ r.ends = ends.elim .none Datum.moment := by
      rcases kept with missing | ⟨t, isMoment⟩
      · exact ⟨none, (readEnd_ok_iff (.inl missing)).mpr missing, missing⟩
      · exact ⟨some t, (readEnd_ok_iff (.inr ⟨t, isMoment⟩)).mpr isMoment, isMoment⟩
    obtain ⟨ends, ending, same⟩ := ending
    have bound : n ≤ Schedule.maxInterval := by
      unfold Schedule.construct at made
      obtain ⟨_, _, made⟩ := Outcome.bind_eq_ok.mp made
      obtain ⟨_, _, made⟩ := Outcome.bind_eq_ok.mp made
      obtain ⟨fits, _⟩ := Outcome.then_eq_ok.mp made
      exact (checkInterval_settledDraft interval positive ..).mp fits
    rw [construct_settledDraft interval positive bound (checked .month) ending] at made
    cases made
    refine ⟨known, rfl, ⟨n, interval, positive, bound⟩, rfl, count, same, start, read, ?_, checked⟩
    intro part numeric
    cases part with
    | weekday => exact absurd rfl numeric
    | _ => rfl
  · intro settles
    obtain ⟨n, interval, positive, bound⟩ := settles.interval
    have kept : r.ends = .none ∨ ∃ t, r.ends = .moment t := by
      rw [settles.ends]
      cases schedule.ends with
      | none => exact .inl rfl
      | some t => exact .inr ⟨t, rfl⟩
    have ending := (readEnd_ok_iff kept).mpr settles.ends
    refine ⟨_, ⟨_, _, _, settles.frequency, ⟨n, interval, positive⟩, settles.count, settles.weekStart,
      settles.weekdays, settles.inRange, kept, rfl⟩, ?_⟩
    rw [construct_settledDraft interval positive bound (settles.inRange .month) ending]
    have values := settles.sameValues
    obtain ⟨frequency, _, count, ends, weekStart, setPositions, months, monthDays, yearDays,
      weekNumbers, weekdays, hours, minutes, seconds⟩ := schedule
    cases settles.sameInterval
    cases settles.sameCount
    cases values .setPosition (by decide)
    cases values .month (by decide)
    cases values .monthDay (by decide)
    cases values .yearDay (by decide)
    cases values .weekNumber (by decide)
    cases values .hour (by decide)
    cases values .minute (by decide)
    cases values .second (by decide)
    rfl

/-- A rule is valid from a start on when the start is a moment, the values settle
and the schedule passes its check. -/
theorem validate_ok_iff {r : Rule} {start : Datum} :
    r.validate start = .ok () ↔
      ∃ moment schedule, readStart start = .ok moment ∧ r.Settles schedule ∧
        schedule.check moment = .ok () := by
  unfold validate
  simp only [Outcome.bind_eq_ok, Outcome.mapError_eq_ok, toSchedule_ok_iff]
  constructor
  · rintro ⟨moment, read, schedule, settles, checked⟩
    exact ⟨moment, schedule, read, settles, checked⟩
  · rintro ⟨moment, schedule, read, settles, checked⟩
    exact ⟨moment, read, schedule, settles, checked⟩

end Rule

end Recurrence
