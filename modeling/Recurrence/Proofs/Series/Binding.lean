import Mathlib.Data.List.Basic
import Recurrence.Proofs.Schedule.Soundness
import Recurrence.Series.Binding

namespace Recurrence

namespace Datum

/-- Values that are all integers with some property come from such integers. -/
theorem exists_integers {P : Int → Prop} {values : List Datum}
    (each : ∀ d ∈ values, ∃ n : Int, d = .int n ∧ P n) :
    ∃ ns : List Int, values = ns.map .int ∧ ∀ n ∈ ns, P n := by
  induction values with
  | nil => exact ⟨[], rfl, fun _ member => nomatch member⟩
  | cons d values ih =>
    obtain ⟨n, rfl, first⟩ := each d (List.mem_cons_self ..)
    obtain ⟨ns, rfl, rest⟩ := ih fun d member => each d (List.mem_cons_of_mem _ member)
    refine ⟨n :: ns, rfl, fun m member => ?_⟩
    rcases List.mem_cons.mp member with rfl | later
    · exact first
    · exact rest m later

theorem filterMap_asInt? (ns : List Int) : (ns.map Datum.int).filterMap asInt? = ns := by
  rw [List.filterMap_map]
  exact List.filterMap_some

end Datum

namespace Series

theorem readStrict_int {low high : Int} {zeroAllowed : Bool} {ns : List Int}
    (inside : ∀ n ∈ ns, low ≤ n ∧ n ≤ high ∧ (n ≠ 0 ∨ zeroAllowed = true)) :
    readStrict low high zeroAllowed (ns.map .int) = .ok ns := by
  induction ns with
  | nil => rfl
  | cons n ns ih =>
    have first := inside n (List.mem_cons_self ..)
    have rest := ih fun m member => inside m (List.mem_cons_of_mem _ member)
    simp only [List.map_cons, readStrict, Datum.asIntOrBool?, if_pos first, rest]
    rfl

theorem sortable_int (ns : List Int) : sortable (ns.map .int) = true := by
  have collectable : (ns.map Datum.int).all Datum.collectable = true := by
    simp [List.all_map, Function.comp_def, Datum.collectable]
  have numbers : (ns.map Datum.int).all (fun d => d.asNumber?.isSome) = true := by
    simp [List.all_map, Function.comp_def, Datum.asNumber?]
  simp only [sortable, collectable, numbers, Bool.true_or, Bool.and_self]

theorem filterMap_whole? (ns : List Int) : (ns.map Datum.int).filterMap Datum.whole? = ns := by
  rw [List.filterMap_map]
  exact List.filterMap_some

/-- The numbers of a part that is not empty. -/
def wantedOf (ns : List Int) : Option (List Int) := if ns.isEmpty then none else some ns

theorem readWanted_int (ns : List Int) : readWanted (ns.map .int) = .ok (wantedOf ns) := by
  unfold readWanted wantedOf
  rw [List.isEmpty_map, sortable_int, filterMap_whole?]
  split <;> rfl

theorem readMonthDays_int {ns : List Int} (days : ∀ n ∈ ns, n ≠ 0) :
    readMonthDays (ns.map .int) = .ok (wantedOf ns) := by
  have numbers : (ns.map Datum.int).all (fun d => d.asNumber?.isSome) = true := by
    simp [List.all_map, Function.comp_def, Datum.asNumber?]
  have kept : (ns.map Datum.int).filter (fun d => d.compareInt? 0 != some (some .eq)) =
      ns.map .int := by
    rw [List.filter_eq_self]
    rintro d member
    obtain ⟨n, among, rfl⟩ := List.mem_map.mp member
    simpa [Datum.compareInt?, Datum.asNumber?] using days n among
  unfold readMonthDays wantedOf
  rw [numbers, kept]
  dsimp only
  rw [if_pos rfl, List.isEmpty_map, filterMap_whole?]

theorem readWeekNumbers_int (ns : List Int) : readWeekNumbers (ns.map .int) = .ok ns := by
  have read : readWeekNumbers (ns.map .int) =
      .ok ((ns.map Datum.int).map fun d => d.asInt?.getD 0) := by
    refine Outcome.mapM_ok fun d member => ?_
    obtain ⟨n, _, rfl⟩ := List.mem_map.mp member
    rfl
  rw [read, List.map_map]
  exact congrArg _ (List.map_id ns)

/-- The integers among the values of a list part. -/
def integers (values : List Datum) : List Int := values.filterMap Datum.asInt?

end Series

namespace DayChoice

/-- The day of a choice without ordinal. -/
def every? : DayChoice → Option Weekday
  | every day => some day
  | nth _ _ => none

/-- The day of a choice with its ordinal. -/
def nth? : DayChoice → Option (Int × Weekday)
  | every _ => none
  | nth ordinal day => ordinal.asInt?.map fun n => (n, day)

/-- A choice as it is read for a period that has ordinals. -/
def place : DayChoice → Weekday ⊕ (Int × Weekday)
  | every day => .inl day
  | nth ordinal day => .inr (ordinal.asInt?.getD 0, day)

end DayChoice

namespace Series

/-- The count of a schedule, where it has one. -/
def countOf (d : Datum) : Option Nat := d.asInt?.map Int.toNat

/-- The interval of a schedule. -/
def intervalOf (schedule : Schedule) : Nat := (schedule.interval.asIntOrBool?.getD 1).toNat

/-- What a schedule with the given hours, minutes and seconds is bound to when all
of its values can be read. -/
def bound (schedule : Schedule) (start : Timestamp)
    (clock : Option (List Int) × Option (List Int) × Option (List Int)) : Series :=
  fillDays schedule {
    frequency := schedule.frequency
    interval := max 1 (intervalOf schedule)
    weekStart := schedule.weekStart
    start := start.aware.cutSeconds
    ends := schedule.ends
    count := countOf schedule.count
    setPositions := integers schedule.setPositions
    months := schedule.months.filterMap Datum.toMonth?
    monthDays := wantedOf (integers schedule.monthDays)
    yearDays := wantedOf (integers schedule.yearDays)
    weekNumbers := integers schedule.weekNumbers
    weekdays := schedule.weekdays.filterMap DayChoice.every?
    ordinals := schedule.weekdays.filterMap DayChoice.nth?
    hours := clock.1
    minutes := clock.2.1
    seconds := clock.2.2
    interval_pos := by omega }

/-- Days that are filled in leave the other parts alone. -/
theorem fillDays_eq (schedule : Schedule) (s : Series) :
    ∃ months monthDays weekdays, fillDays schedule s =
      { s with months := months, monthDays := monthDays, weekdays := weekdays } := by
  unfold fillDays
  split
  · split
    · exact ⟨_, _, _, rfl⟩
    · exact ⟨_, _, _, rfl⟩
    · exact ⟨_, _, _, rfl⟩
    · exact ⟨_, _, _, rfl⟩
  · exact ⟨_, _, _, rfl⟩

section Bound

variable (schedule : Schedule) (start : Timestamp)
  (clock : Option (List Int) × Option (List Int) × Option (List Int))

@[simp] theorem bound_frequency : (bound schedule start clock).frequency = schedule.frequency := by
  obtain ⟨_, _, _, same⟩ := fillDays_eq schedule _
  rw [bound, same]

@[simp] theorem bound_interval : (bound schedule start clock).interval = max 1 (intervalOf schedule) := by
  obtain ⟨_, _, _, same⟩ := fillDays_eq schedule _
  rw [bound, same]

@[simp] theorem bound_start : (bound schedule start clock).start = start.aware.cutSeconds := by
  obtain ⟨_, _, _, same⟩ := fillDays_eq schedule _
  rw [bound, same]

@[simp] theorem bound_ends : (bound schedule start clock).ends = schedule.ends := by
  obtain ⟨_, _, _, same⟩ := fillDays_eq schedule _
  rw [bound, same]

@[simp] theorem bound_count : (bound schedule start clock).count = countOf schedule.count := by
  obtain ⟨_, _, _, same⟩ := fillDays_eq schedule _
  rw [bound, same]

@[simp] theorem bound_setPositions : (bound schedule start clock).setPositions = integers schedule.setPositions := by
  obtain ⟨_, _, _, same⟩ := fillDays_eq schedule _
  rw [bound, same]

@[simp] theorem bound_weekNumbers : (bound schedule start clock).weekNumbers = integers schedule.weekNumbers := by
  obtain ⟨_, _, _, same⟩ := fillDays_eq schedule _
  rw [bound, same]

@[simp] theorem bound_ordinals : (bound schedule start clock).ordinals = schedule.weekdays.filterMap DayChoice.nth? := by
  obtain ⟨_, _, _, same⟩ := fillDays_eq schedule _
  rw [bound, same]

@[simp] theorem bound_hours : (bound schedule start clock).hours = clock.1 := by
  obtain ⟨_, _, _, same⟩ := fillDays_eq schedule _
  rw [bound, same]

@[simp] theorem bound_minutes : (bound schedule start clock).minutes = clock.2.1 := by
  obtain ⟨_, _, _, same⟩ := fillDays_eq schedule _
  rw [bound, same]

@[simp] theorem bound_seconds : (bound schedule start clock).seconds = clock.2.2 := by
  obtain ⟨_, _, _, same⟩ := fillDays_eq schedule _
  rw [bound, same]

end Bound

variable {schedule : Schedule} {moment : Timestamp}

theorem values_of_sound (sound : schedule.IsSound moment) {part : ListPart} {low high : Int}
    {zeroAllowed : Bool} (range : part.range? = some (low, high, zeroAllowed)) :
    schedule.values part = (integers (schedule.values part)).map .int ∧
      ∀ n ∈ integers (schedule.values part), low ≤ n ∧ n ≤ high ∧ (n ≠ 0 ∨ zeroAllowed = true) := by
  obtain ⟨ns, same, inside⟩ := Datum.exists_integers (sound.numbers part low high zeroAllowed range)
  have only : integers (schedule.values part) = ns := by
    rw [same]
    exact Datum.filterMap_asInt? ns
  rw [only]
  exact ⟨same, inside⟩

theorem readChoice_place (sound : schedule.IsSound moment) {choice : DayChoice}
    (member : choice ∈ schedule.weekdays) :
    readChoice schedule.frequency choice = .ok choice.place := by
  cases choice with
  | every day => rfl
  | nth ordinal day =>
    obtain ⟨n, limit, rfl, limited, ordinal, _, _⟩ := sound.ordinals ordinal day member
    have long : schedule.frequency.isWithinMonth = false := by
      unfold Schedule.ordinalLimit? at limited
      split at limited
      · rename_i monthly
        rw [monthly]
        rfl
      · rename_i yearly
        rw [yearly]
        rfl
      · cases limited
    have zero : ((Datum.int n).compareInt? 0 == some (some .eq)) = false := by
      simpa [Datum.compareInt?, Datum.asNumber?] using ordinal
    have truthy : (Datum.int n).truthy = true := by simpa [Datum.truthy] using ordinal
    simp only [readChoice, zero, long, truthy, Bool.not_true, Bool.or_self, Bool.false_eq_true,
      if_false, Datum.asIntOrBool?, DayChoice.place, Datum.asInt?, Option.getD_some]

theorem getLeft?_place (choices : List DayChoice) :
    (choices.map DayChoice.place).filterMap Sum.getLeft? = choices.filterMap DayChoice.every? := by
  rw [List.filterMap_map]
  congr 1
  funext choice
  cases choice <;> rfl

theorem getRight?_place (sound : schedule.IsSound moment) :
    (schedule.weekdays.map DayChoice.place).filterMap Sum.getRight? =
      schedule.weekdays.filterMap DayChoice.nth? := by
  rw [List.filterMap_map]
  refine List.filterMap_congr fun choice member => ?_
  cases choice with
  | every day => rfl
  | nth ordinal day =>
    obtain ⟨n, _, rfl, _⟩ := sound.ordinals ordinal day member
    rfl

theorem readCount_of_sound (sound : schedule.IsSound moment) :
    readCount schedule.count = .ok (countOf schedule.count) := by
  rcases sound.count with missing | ⟨n, isInt⟩
  · rw [missing]
    rfl
  · rw [isInt]
    rfl

theorem months_isNone_of_sound (sound : schedule.IsSound moment) :
    (schedule.months.any fun d => d.asIntOrBool?.isNone) = false := by
  rw [List.any_eq_false]
  intro d member
  obtain ⟨n, rfl, _⟩ := sound.numbers .month 1 12 false rfl d member
  exact Bool.false_ne_true

/-- Binding a sound schedule can only fail at the clock. -/
theorem ofSchedule_eq (sound : schedule.IsSound moment) (start : Timestamp) :
    ofSchedule schedule start =
      (readClock schedule (intervalOf schedule) start.aware.cutSeconds).map
        (bound schedule start) := by
  have choices : schedule.weekdays.mapM (readChoice schedule.frequency) =
      .ok (schedule.weekdays.map DayChoice.place) :=
    Outcome.mapM_ok fun _ member => readChoice_place sound member
  have setPositions : readStrict (-366) 366 false schedule.setPositions =
      .ok (integers schedule.setPositions) := by
    obtain ⟨same, inside⟩ := values_of_sound sound (rfl : ListPart.setPosition.range? = some _)
    exact (congrArg _ same).trans (readStrict_int inside)
  have yearDays : readWanted schedule.yearDays = .ok (wantedOf (integers schedule.yearDays)) := by
    obtain ⟨same, _⟩ := values_of_sound sound (rfl : ListPart.yearDay.range? = some _)
    exact (congrArg _ same).trans (readWanted_int _)
  have monthDays : readMonthDays schedule.monthDays =
      .ok (wantedOf (integers schedule.monthDays)) := by
    obtain ⟨same, inside⟩ := values_of_sound sound (rfl : ListPart.monthDay.range? = some _)
    refine (congrArg _ same).trans (readMonthDays_int fun n member => ?_)
    exact (inside n member).2.2.resolve_right Bool.false_ne_true
  have weekNumbers : readWeekNumbers schedule.weekNumbers =
      .ok (integers schedule.weekNumbers) := by
    obtain ⟨same, _⟩ := values_of_sound sound (rfl : ListPart.weekNumber.range? = some _)
    exact (congrArg _ same).trans (readWeekNumbers_int _)
  unfold ofSchedule
  simp only [choices, setPositions, yearDays, monthDays, weekNumbers, readCount_of_sound sound,
    months_isNone_of_sound sound, getLeft?_place, getRight?_place sound, Bool.and_false,
    Bool.false_eq_true, if_false, bind, Except.bind]
  cases read : readClock schedule (intervalOf schedule) start.aware.cutSeconds with
  | error fault =>
    rw [intervalOf] at read
    rw [read]
    rfl
  | ok clock =>
    rw [intervalOf] at read
    rw [read]
    rfl

theorem exists_clock_of_ofSchedule (sound : schedule.IsSound moment) {start : Timestamp}
    {series : Series} (made : ofSchedule schedule start = .ok series) :
    ∃ clock, readClock schedule (intervalOf schedule) start.aware.cutSeconds = .ok clock ∧
      bound schedule start clock = series := by
  rw [ofSchedule_eq sound start] at made
  cases read : readClock schedule (intervalOf schedule) start.aware.cutSeconds with
  | error fault =>
    rw [read] at made
    cases made
  | ok clock =>
    rw [read] at made
    exact ⟨clock, rfl, Except.ok.inj made⟩

end Series

end Recurrence
