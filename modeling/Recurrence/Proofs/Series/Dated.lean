import Recurrence.Proofs.Series.Bare
import Recurrence.Proofs.Series.Months
import Recurrence.Proofs.Series.Progression

namespace Recurrence.Series

/-- A series of months or years in which everything is left to the start: the day of the
month, and the month too in a year. -/
structure IsDated (s : Series) : Prop where
  calendar : s.frequency = .yearly ∨ s.frequency = .monthly
  setPositions : s.setPositions = []
  months : s.months = if s.frequency = .yearly then [s.start.date.month] else []
  monthDays : s.monthDays = some [(s.start.date.day : Int)]
  yearDays : s.yearDays = none
  weekNumbers : s.weekNumbers = []
  weekdays : s.weekdays = []
  ordinals : s.ordinals = []
  hours : s.hours = none
  minutes : s.minutes = none
  seconds : s.seconds = none

/-- The date that the start asks for in a month or year, whether or not it exists. -/
def target (s : Series) (period : Nat) : Date :=
  match s.frequency with
  | .yearly => ⟨period, s.start.date.month, s.start.date.day⟩
  | _ => ⟨period / 12, period % 12 + 1, s.start.date.day⟩

variable {s : Series} {period : Nat}

theorem IsDated.notWeekly (dated : s.IsDated) : s.frequency ≠ .weekly := by
  rcases dated.calendar with kind | kind <;> rw [kind] <;> decide

theorem keeps_dated (dated : s.IsDated) (table : YearTable) {number : Nat} (positive : 0 < number)
    (bound : number ≤ Date.lastNumber) :
    s.keeps table number = true ↔
      (s.frequency = .yearly → (Date.ofNumber number).month = s.start.date.month) ∧
        (Date.ofNumber number).day = s.start.date.day := by
  obtain ⟨_, _, _, _, _, short⟩ := Date.isValid_iff.mp (Date.ofNumber_isValid positive bound)
  obtain ⟨_, _, _, _, first, _⟩ := Date.isValid_iff.mp s.start.date_isValid
  -- the day of the start, counted from one, is not also met from the end of the month
  have day : s.keepsMonthDay (Date.ofNumber number) = true ↔
      (Date.ofNumber number).day = s.start.date.day := by
    unfold keepsMonthDay
    simp only [dated.monthDays, List.contains_cons, List.contains_nil, Bool.or_false,
      Bool.or_eq_true, beq_iff_eq]
    omega
  have month : (s.months.isEmpty || s.months.contains (Date.ofNumber number).month) = true ↔
      (s.frequency = .yearly → (Date.ofNumber number).month = s.start.date.month) := by
    rw [dated.months]
    split <;> simp_all
  have rest : s.keeps table number =
      ((s.months.isEmpty || s.months.contains (Date.ofNumber number).month) &&
        s.keepsMonthDay (Date.ofNumber number)) := by
    unfold keeps keepsYearDay
    rw [dated.weekNumbers, dated.weekdays, dated.ordinals, dated.yearDays, dated.monthDays]
    simp
  rw [rest, Bool.and_eq_true, month, day]

/-- The dates of a yearly period are those of its year. -/
theorem year_of_yearly (yearly : s.frequency = .yearly) (later : s.firstPeriod ≤ period)
    {number : Nat} (member : number ∈ s.days period) : (Date.ofNumber number).year = period := by
  have year := (Date.isValid_iff.mp s.start.date_isValid).1
  rw [days, List.mem_range'_1] at member
  unfold firstDay length at member
  unfold firstPeriod at later
  simp only [yearly] at member later
  have next := Date.daysBeforeYear_succ (Nat.le_trans year later)
  exact Date.yearOf_eq (by omega) (by omega)

/-- In a month or year the date that the start asks for is chosen, and no other. -/
theorem keeps_iff_target (dated : s.IsDated) (table : YearTable) (later : s.firstPeriod ≤ period)
    (inside : period < horizon s.frequency) {number : Nat} (member : number ∈ s.days period) :
    s.keeps table number = true ↔ Date.ofNumber number = s.target period := by
  obtain ⟨positive, bound⟩ := mem_days later inside member
  rw [keeps_dated dated table positive (bound dated.notWeekly)]
  unfold target
  rcases dated.calendar with yearly | monthly
  · have year := year_of_yearly yearly later member
    rw [yearly]
    generalize Date.ofNumber number = d at year
    obtain ⟨_, month, day⟩ := d
    cases year
    simp only [forall_const, Date.mk.injEq, true_and]
  · obtain ⟨day, _, _, _, date⟩ := ofNumber_of_monthly monthly later inside member
    rw [monthly, date]
    simp only [reduceCtorEq, false_imp_iff, true_and, Date.mk.injEq]

/-- The date that the start asks for, where it exists, is one of the month or year. -/
theorem number_target_mem (dated : s.IsDated) (valid : (s.target period).isValid = true) :
    (s.target period).number ∈ s.days period := by
  rw [days, List.mem_range'_1]
  unfold firstDay length Date.number
  unfold target at *
  rw [Date.isValid_iff] at valid
  rcases dated.calendar with kind | kind
  · rw [kind] at valid ⊢
    dsimp only at valid ⊢
    have through : Date.daysBeforeMonth period (s.start.date.month + 1) ≤
        Date.daysBeforeMonth period 13 := Date.daysBeforeMonth_mono (by omega)
    rw [Date.daysBeforeMonth_succ, Date.daysBeforeMonth_thirteen] at through
    omega
  · rw [kind] at valid ⊢
    dsimp only at valid ⊢
    omega

/-- The days that are chosen in a month or year are the one that the start asks for, or none. -/
theorem kept_dated (dated : s.IsDated) (table : YearTable) (later : s.firstPeriod ≤ period)
    (inside : period < horizon s.frequency) :
    s.kept table period =
      if (s.target period).isValid = true then [(s.target period).number] else [] := by
  have chosen {number : Nat} (member : number ∈ s.days period) :=
    keeps_iff_target dated table later inside member
  unfold kept
  split
  · rename_i valid
    have among := number_target_mem dated valid
    unfold days at among chosen ⊢
    refine filter_range'_of_unique (List.mem_range'_1.mp among) fun number low high => ?_
    have member := List.mem_range'_1.mpr ⟨low, high⟩
    rw [chosen member]
    constructor
    · intro same
      rw [← same, Date.number_ofNumber (mem_days later inside member).1]
    · rintro rfl
      exact Date.ofNumber_number valid
  · rename_i invalid
    refine List.filter_eq_nil_iff.mpr fun number member kept => invalid ?_
    obtain ⟨positive, bound⟩ := mem_days later inside member
    rw [← (chosen member).mp kept]
    exact Date.ofNumber_isValid positive (bound dated.notWeekly)

theorem times_dated (dated : s.IsDated) (period : Nat) :
    s.times s.dayTimes period = [s.start.secondOfDay] := by
  have long : s.frequency.isWithinDay = false := by
    rcases dated.calendar with kind | kind <;> rw [kind] <;> rfl
  unfold times
  rw [long]
  exact dayTimes_of_none dated.hours dated.minutes dated.seconds

/-- What the start comes to in a number of months or years is on the date that it asks
for there. -/
theorem later?_dated (dated : s.IsDated) (steps : Nat) :
    s.start.later? s.frequency (steps * s.interval) =
      s.start.onDate? (s.target (s.firstPeriod + steps * s.interval)) := by
  unfold Timestamp.later? target firstPeriod
  rcases dated.calendar with kind | kind
  · rw [kind]
  · rw [kind]
    rfl

/-- There is no date to ask for behind the last year. -/
theorem target_of_late (dated : s.IsDated) (late : ¬period < horizon s.frequency) :
    Date.lastYear < (s.target period).year := by
  have last : Date.lastYear = 9999 := rfl
  unfold horizon at late
  unfold target
  rcases dated.calendar with kind | kind
  · rw [kind] at late ⊢
    dsimp only at late ⊢
    omega
  · rw [kind] at late ⊢
    dsimp only at late ⊢
    omega

/-- A month or year brings the date that the start asks for, if it exists, and nothing else. -/
theorem candidates_dated (dated : s.IsDated) (whole : s.start.micros = 0) (table : YearTable)
    (later : s.firstPeriod ≤ period) (inside : period < horizon s.frequency) :
    (s.candidates (s.times s.dayTimes period) (s.kept table period)).items =
        (s.start.onDate? (s.target period)).toList ∧
      (s.candidates (s.times s.dayTimes period) (s.kept table period)).ending = none := by
  rw [times_dated dated, kept_dated dated table later inside]
  split
  · rename_i valid
    have member := number_target_mem dated valid
    obtain ⟨positive, bound⟩ := mem_days later inside member
    have found := (moment_ok_iff (s := s) positive (Nat.mod_lt s.start.seconds (by decide))).mpr
      (bound dated.notWeekly)
    have given := moment_of_date whole valid
    rw [candidates_single dated.setPositions]
    refine ⟨?_, (Run.ending_startWith ..).mpr ⟨found, rfl⟩⟩
    rw [given]
    exact items_startWith_ifMissing ..
  · rename_i invalid
    have nothing : s.candidates [s.start.secondOfDay] [] = .done := by
      unfold candidates
      rw [dated.setPositions]
      rfl
    rw [nothing, Timestamp.onDate?_eq_none (Bool.eq_false_iff.mpr invalid)]
    exact ⟨rfl, rfl⟩

/-- A dated series progresses by its interval in months or years, of which those count
in which the date of the start exists. -/
theorem progresses_dated (dated : s.IsDated) (whole : s.start.micros = 0) :
    s.Progresses (fun steps period => period = s.firstPeriod + steps * s.interval)
      fun steps => s.start.later? s.frequency (steps * s.interval) where
  first := by rw [Nat.zero_mul, Nat.add_zero]
  onward := by
    rintro steps period rfl inside
    obtain ⟨table, known⟩ := yearTable_of_nil dated.weekNumbers dated.ordinals
      (s.firstPeriod + steps * s.interval)
    have calendar : s.frequency ∈ [.yearly, .monthly, .daily] := by
      rcases dated.calendar with kind | kind <;> rw [kind] <;> decide
    obtain ⟨beyond, way⟩ := nextPeriod_calendar calendar (s.passesOver table _)
      (s.firstPeriod + steps * s.interval)
    obtain ⟨items, ending⟩ := candidates_dated dated whole table (Nat.le_add_right ..) inside
    refine ⟨table, _, known, way, ?_, ?_, .inl ending⟩
    · rw [Nat.succ_mul]
      exact Nat.add_assoc ..
    · rw [items, later?_dated dated]
  outside := by
    rintro steps period rfl outside later after
    have onward := Nat.mul_le_mul_right s.interval after
    rw [later?_dated dated]
    exact Timestamp.onDate?_of_late (target_of_late dated (by omega))

end Recurrence.Series
