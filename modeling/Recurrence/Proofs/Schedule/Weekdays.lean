import Recurrence.Proofs.Schedule.Parts
import Recurrence.Proofs.Series.Months

namespace Recurrence

namespace DayChoice

/-- Whether a choice has an ordinal. -/
def isNth : DayChoice → Bool
  | every _ => false
  | nth _ _ => true

/-- Whether a moment falls on the chosen weekday and, where the choice has an ordinal, is
the n-th of it in its month. -/
def Matches (choice : DayChoice) (t : Timestamp) : Prop :=
  match choice with
  | every day => day.index = Weekday.indexOfNumber t.dayNumber
  | nth ordinal day => ∃ n, ordinal = .int n ∧ day.index = Weekday.indexOfNumber t.dayNumber ∧
      t.date.IsNthInMonth n

section Kinds

variable {choices : List DayChoice} {P : DayChoice → Prop}

theorem exists_every :
    (∃ choice ∈ choices, choice.isNth = false ∧ P choice) ↔
      ∃ day ∈ choices.filterMap every?, P (.every day) := by
  constructor
  · rintro ⟨choice, member, plain, holds⟩
    cases choice with
    | every day => exact ⟨day, List.mem_filterMap.mpr ⟨_, member, rfl⟩, holds⟩
    | nth _ _ => cases plain
  · rintro ⟨day, member, holds⟩
    obtain ⟨choice, among, read⟩ := List.mem_filterMap.mp member
    cases choice with
    | every own =>
      cases read
      exact ⟨_, among, rfl, holds⟩
    | nth _ _ => cases read

theorem exists_nth (integers : ∀ ordinal day, .nth ordinal day ∈ choices → ∃ n, ordinal = .int n) :
    (∃ choice ∈ choices, choice.isNth = true ∧ P choice) ↔
      ∃ entry ∈ choices.filterMap nth?, P (.nth (.int entry.1) entry.2) := by
  constructor
  · rintro ⟨choice, member, numbered, holds⟩
    cases choice with
    | every _ => cases numbered
    | nth ordinal day =>
      obtain ⟨n, rfl⟩ := integers ordinal day member
      exact ⟨(n, day), List.mem_filterMap.mpr ⟨_, member, rfl⟩, holds⟩
  · rintro ⟨entry, member, holds⟩
    exact ⟨_, Series.mem_nth? member, rfl, holds⟩

end Kinds

end DayChoice

namespace Schedule

/-- The schedule with other weekdays. -/
def on (s : Schedule) (choices : List DayChoice) : Schedule := { s with weekdays := choices }

/-- Whether a moment falls on one of the choices without an ordinal, when there are any, and
on one of those with an ordinal, when there are any. -/
def FallsOn (choices : List DayChoice) (t : Timestamp) : Prop :=
  ∀ kind, (∃ choice ∈ choices, choice.isNth = kind) →
    ∃ choice ∈ choices, choice.isNth = kind ∧ choice.Matches t

section Falls

variable {choices : List DayChoice} {t : Timestamp} {kind : Bool}

/-- Among choices of one kind it is enough to fall on any of them. -/
theorem fallsOn_of_kind (given : choices ≠ []) (uniform : ∀ choice ∈ choices, choice.isNth = kind) :
    FallsOn choices t ↔ ∃ choice ∈ choices, choice.Matches t := by
  constructor
  · intro falls
    obtain ⟨choice, member⟩ := List.exists_mem_of_ne_nil _ given
    obtain ⟨other, among, _, same⟩ := falls kind ⟨choice, member, uniform choice member⟩
    exact ⟨other, among, same⟩
  · rintro ⟨choice, member, same⟩ other ⟨some, among, isOther⟩
    refine ⟨choice, member, ?_, same⟩
    rw [uniform choice member, ← uniform some among, isOther]

/-- Choices of one kind are alternatives. -/
theorem fallsOn_append {others : List DayChoice} (given : choices ≠ []) (otherGiven : others ≠ [])
    (uniform : ∀ choice ∈ choices ++ others, choice.isNth = kind) :
    FallsOn (choices ++ others) t ↔ FallsOn choices t ∨ FallsOn others t := by
  obtain ⟨ofKind, otherOfKind⟩ := List.forall_mem_append.mp uniform
  rw [fallsOn_of_kind (List.append_ne_nil_of_left_ne_nil given _) uniform,
    fallsOn_of_kind given ofKind, fallsOn_of_kind otherGiven otherOfKind]
  simp only [List.mem_append, or_and_right, exists_or]

theorem exists_of_mixed (mixed : ¬∃ kind, ∀ choice ∈ choices, choice.isNth = kind) (kind : Bool) :
    ∃ choice ∈ choices, choice.isNth = kind := by
  by_contra none
  refine mixed ⟨!kind, fun choice member => ?_⟩
  by_contra differs
  rw [Bool.eq_not, not_not] at differs
  exact none ⟨choice, member, differs⟩

/-- To fall on the choices is to fall on those of either kind. -/
theorem fallsOn_kinds :
    FallsOn choices t ↔ FallsOn (choices.filter fun choice => !choice.isNth) t ∧
      FallsOn (choices.filter DayChoice.isNth) t := by
  have filtered (p : DayChoice → Bool) (kind : Bool) (only : ∀ choice, p choice = (choice.isNth == kind)) :
      FallsOn (choices.filter p) t ↔ ((∃ choice ∈ choices, choice.isNth = kind) →
        ∃ choice ∈ choices, choice.isNth = kind ∧ choice.Matches t) := by
    unfold FallsOn
    simp only [List.mem_filter, only, beq_iff_eq]
    constructor
    · rintro falls ⟨choice, member, isKind⟩
      obtain ⟨other, ⟨among, _⟩, same⟩ := falls kind ⟨choice, ⟨member, isKind⟩, isKind⟩
      exact ⟨other, among, same⟩
    · rintro falls other ⟨choice, ⟨member, isKind⟩, isOther⟩
      obtain ⟨found, among, foundKind, same⟩ := falls ⟨choice, member, isKind⟩
      exact ⟨found, ⟨among, foundKind⟩, by rw [foundKind, ← isKind, isOther], same⟩
  rw [filtered _ false fun choice => by cases choice.isNth <;> rfl,
    filtered _ true fun choice => by cases choice.isNth <;> rfl]
  exact Bool.forall_bool

end Falls

variable {s : Schedule} {moment start : Timestamp} {choices others : List DayChoice}

theorem fits_of_check (checked : s.check start = .ok ()) :
    ∀ choice ∈ s.weekdays, s.checkChoice choice = .ok () :=
  (checkFrequencyParts_ok (check_ok checked).1).2.2.2

/-- Without set positions a schedule with other weekdays passes its check when each of them
does. -/
theorem check_on (checked : s.check start = .ok ()) (unplaced : s.setPositions = [])
    (each : ∀ choice ∈ choices, s.checkChoice choice = .ok ()) : (s.on choices).check start = .ok () := by
  have own : s.weekdays.forM s.checkChoice = .ok () :=
    Outcome.forM_eq_ok.mpr (fits_of_check checked)
  have other : choices.forM s.checkChoice = .ok () := Outcome.forM_eq_ok.mpr each
  have same : (s.on choices).checkChoice = s.checkChoice := rfl
  have parts : (s.on choices).checkFrequencyParts = s.checkFrequencyParts := by
    unfold checkFrequencyParts
    rw [same, own]
    simp only [on, other]
  have placeless : (s.on choices).setPositions = [] := unplaced
  rw [← checked]
  unfold check
  rw [parts, unplaced, placeless]
  rfl

end Schedule

namespace Series

variable {s : Schedule} {moment start t : Timestamp} {choices others : List DayChoice}
  {clock : Option (List Int) × Option (List Int) × Option (List Int)}

/-- What a schedule is bound to with other weekdays differs in nothing but these. -/
theorem bound_on (given : choices ≠ []) (otherGiven : others ≠ []) :
    bound (s.on others) start clock =
      { bound (s.on choices) start clock with
        weekdays := others.filterMap DayChoice.every?
        ordinals := others.filterMap DayChoice.nth? } := by
  have closed : leavesDaysOpen (s.on choices) = false := closed_of_weekdays given
  have otherClosed : leavesDaysOpen (s.on others) = false := closed_of_weekdays otherGiven
  unfold bound
  rw [fillDays_of_closed closed, fillDays_of_closed otherClosed]
  rfl

theorem liesInMonths_on (given : choices ≠ []) (otherGiven : others ≠ []) :
    (bound (s.on others) start clock).LiesInMonths t ↔
      (bound (s.on choices) start clock).LiesInMonths t := by
  rw [bound_on given otherGiven]
  exact ⟨fun lies => ⟨lies.period, lies.time, lies.offset, lies.whole, lies.month, lies.monthDay,
      lies.yearDay, lies.begun, lies.ends⟩,
    fun lies => ⟨lies.period, lies.time, lies.offset, lies.whole, lies.month, lies.monthDay,
      lies.yearDay, lies.begun, lies.ends⟩⟩

theorem nil_or_iff {α : Type} {l : List α} {p : Prop} : l = [] ∨ p ↔ ((∃ a ∈ l, True) → p) := by
  rw [or_iff_not_imp_left]
  refine imp_congr_left ⟨fun given => ?_, fun ⟨_, member, _⟩ => List.ne_nil_of_mem member⟩
  obtain ⟨a, member⟩ := List.exists_mem_of_ne_nil l given
  exact ⟨a, member, trivial⟩

/-- A bound schedule falls on its weekdays by their kinds. -/
theorem fallsOnWeekdays_iff (sound : (s.on choices).IsSound moment) (given : choices ≠ []) :
    (bound (s.on choices) start clock).FallsOnWeekdays t ↔ Schedule.FallsOn choices t := by
  have weekdays : (bound (s.on choices) start clock).weekdays = choices.filterMap DayChoice.every? :=
    weekdays_of_given given
  have ordinals : (bound (s.on choices) start clock).ordinals = choices.filterMap DayChoice.nth? :=
    bound_ordinals ..
  have integers (ordinal : Datum) (day : Weekday) (member : .nth ordinal day ∈ choices) :
      ∃ n, ordinal = .int n := by
    obtain ⟨n, _, isInt, _⟩ := sound.ordinals ordinal day member
    exact ⟨n, isInt⟩
  have anyPlain : (∃ choice ∈ choices, choice.isNth = false) ↔
      ∃ day ∈ choices.filterMap DayChoice.every?, True := by
    rw [← DayChoice.exists_every (P := fun _ => True)]
    simp only [and_true]
  have anyNumbered : (∃ choice ∈ choices, choice.isNth = true) ↔
      ∃ entry ∈ choices.filterMap DayChoice.nth?, True := by
    rw [← DayChoice.exists_nth (P := fun _ => True) integers]
    simp only [and_true]
  have numbered (entry : Int × Weekday) : (DayChoice.nth (.int entry.1) entry.2).Matches t ↔
      entry.2.index = Weekday.indexOfNumber t.dayNumber ∧ t.date.IsNthInMonth entry.1 := by
    constructor
    · rintro ⟨n, same, falls⟩
      cases same
      exact falls
    · exact fun falls => ⟨entry.1, rfl, falls⟩
  unfold Schedule.FallsOn
  rw [Bool.forall_bool, anyPlain, anyNumbered, DayChoice.exists_every, DayChoice.exists_nth integers]
  simp only [numbered]
  rw [← nil_or_iff, ← nil_or_iff, ← weekdays, ← ordinals]
  exact ⟨fun falls => ⟨falls.plain, falls.numbered⟩, fun ⟨plain, numbered⟩ => ⟨plain, numbered⟩⟩

end Series

end Recurrence
