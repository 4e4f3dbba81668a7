import Recurrence.Proofs.Run.Agreement
import Recurrence.Proofs.Series.Bare
import Recurrence.Proofs.Series.Progression

namespace Recurrence

/-- Whether a clock so far ahead of UTC shows an instant before the years end. -/
def Timestamp.Shows (offset instant : Int) : Prop :=
  instant + offset * 1000000 < horizon * 1000000

namespace Series

variable {s other : Series}

/-- How many steps, that of the start included, the clock of a bare series shows
before the years end. -/
def stepsInside (s : Series) : Nat :=
  (Timestamp.horizon - s.start.seconds + s.step - 1) / s.step

theorem after_lt_iff (s : Series) (steps : Nat) :
    s.after steps < Timestamp.horizon ↔ steps < s.stepsInside := by
  have positive := s.step_pos
  have bound : s.start.seconds < Timestamp.horizon := s.start.seconds_lt
  unfold stepsInside after
  rw [← Nat.succ_le_iff, ← Nat.succ_le_iff, Nat.le_div_iff_mul_le positive, Nat.succ_mul]
  omega

/-- The instant of a bare series after some steps. -/
def instantAfter (s : Series) (steps : Nat) : Int :=
  ((s.after steps : Int) - s.start.offset.getD 0) * 1000000

theorem holds_first (s : Series) : s.Holds 0 s.firstPeriod := by
  have start : s.after 0 = s.start.seconds := by rw [after, Nat.zero_mul, Nat.add_zero]
  unfold Holds
  split
  · rename_i weekly
    have into := s.intoWeek_lt
    rw [start, firstPeriod_weekly weekly, length_weekly weekly]
    unfold intoWeek Timestamp.dayNumber at *
    omega
  · rw [Nat.zero_mul, Nat.add_zero]

/-- A period behind the horizon holds a step behind the years. -/
theorem outside_of_holds (bare : s.IsBare) {steps period : Nat} (holds : s.Holds steps period)
    (outside : ¬period < horizon s.frequency) : s.stepsInside - steps = 0 := by
  have last : Date.lastNumber = 3652059 := rfl
  have years : Timestamp.horizon = 315537897600 := rfl
  have late : ¬s.after steps < Timestamp.horizon := by
    unfold Holds at holds
    split at holds
    · rename_i weekly
      have calendar : horizon s.frequency = Date.lastNumber + 1 := by
        rw [weekly]
        rfl
      omega
    · rename_i other
      obtain ⟨day, _⟩ := period_other bare other steps
      rw [← holds] at day
      have calendar : horizon s.frequency = (Date.lastNumber + 1) * unitsPerDay s.frequency := by
        cases kind : s.frequency with
        | yearly => exact absurd kind bare.notYearly
        | monthly => exact absurd kind bare.notMonthly
        | _ => rfl
      have far : Date.lastNumber + 1 ≤ period / unitsPerDay s.frequency := by
        rw [Nat.le_div_iff_mul_le (unitsPerDay_pos _), ← calendar]
        exact Nat.not_lt.mp outside
      omega
  rw [after_lt_iff] at late
  omega

/-- The unit of the frequency, taken so many times as the interval says, is the step. -/
theorem later?_bare (bare : s.IsBare) (steps : Nat) :
    s.start.later? s.frequency (steps * s.interval) = s.start.addSeconds? (steps * s.step) := by
  unfold Timestamp.later? step
  cases kind : s.frequency with
  | yearly => exact absurd kind bare.notYearly
  | monthly => exact absurd kind bare.notMonthly
  | _ => simp [unitsPerDay, Nat.mul_assoc]

theorem later?_bare_eq_none_iff (bare : s.IsBare) (steps : Nat) :
    s.start.later? s.frequency (steps * s.interval) = none ↔ s.stepsInside ≤ steps := by
  rw [later?_bare bare, Timestamp.addSeconds?_eq_none_iff, ← Nat.not_lt, ← Nat.not_lt,
    ← after_lt_iff]
  rfl

/-- A bare series progresses by its interval on the clock of its start. -/
theorem progresses_bare (bare : s.IsBare) (whole : s.start.micros = 0) :
    s.Progresses s.Holds fun steps => s.start.later? s.frequency (steps * s.interval) where
  first := s.holds_first
  onward := by
    intro steps period holds inside
    obtain ⟨table, known⟩ := yearTable_of_nil bare.weekNumbers bare.ordinals period
    obtain ⟨next, way, there⟩ := nextPeriod_bare bare table holds
    refine ⟨table, next, known, way, there, ?_⟩
    have found : s.moment (s.after steps / 86400 + 1) (s.after steps % 86400) =
        Fault.badValue.ifMissing (s.start.later? s.frequency (steps * s.interval)) :=
      moment_of_seconds whole (later?_bare bare steps).symm
    rw [times_bare bare holds, kept_bare bare table holds, candidates_single bare.setPositions, found]
    refine ⟨items_startWith_ifMissing .., ?_⟩
    cases shown : s.start.later? s.frequency (steps * s.interval) with
    | some t => exact .inl rfl
    | none =>
      have missing := (later?_bare_eq_none_iff bare steps).mp shown
      exact .inr fun later after =>
        (later?_bare_eq_none_iff bare later).mpr (Nat.le_trans missing after)
  outside := by
    intro steps period holds outside later after
    have behind := outside_of_holds bare holds outside
    exact (later?_bare_eq_none_iff bare later).mpr (by omega)

theorem found_bare (bare : s.IsBare) (whole : s.start.micros = 0) :
    s.found.map Timestamp.instant = (List.range' 0 s.stepsInside).map s.instantAfter := by
  have nothing (steps : Nat) := (later?_bare_eq_none_iff bare steps).mpr
  have shown (steps : Nat) (before : steps < s.stepsInside) :
      (s.start.later? s.frequency (steps * s.interval)).map Timestamp.instant =
        some (s.instantAfter steps) := by
    have years : Timestamp.horizon = 315537897600 := rfl
    have within : s.after steps < Timestamp.horizon := (after_lt_iff ..).mpr before
    unfold after at within
    rw [later?_bare bare, Timestamp.addSeconds?, Timestamp.make?, dif_pos (by omega)]
    simp only [Option.map_some, Timestamp.instant, Int.toNat_natCast, instantAfter, after, whole,
      Int.natCast_zero, Int.add_zero]
  rw [(progresses_bare bare whole).found nothing, List.map_filterMap, List.range_eq_range',
    ← List.filterMap_eq_map]
  refine List.filterMap_congr fun steps member => shown steps ?_
  rw [List.mem_range'_1] at member
  omega

theorem shows_iff (s : Series) (steps : Nat) :
    Timestamp.Shows (s.start.offset.getD 0) (s.instantAfter steps) ↔ steps < s.stepsInside := by
  rw [← after_lt_iff]
  unfold Timestamp.Shows instantAfter
  omega

/-- What the end and the count of a series, and its start, leave of a list. -/
def limitedList (s : Series) (l : List Int) : List Int :=
  let started := (l.takeWhile fun i => s.ends.all fun ends => i ≤ ends.instant).filter fun i =>
    s.start.instant ≤ i
  match s.count with
  | none => started
  | some count => started.take count

theorem items_limited (s : Series) (run : Run Fault Int) :
    (s.limited run).items = s.limitedList run.items := by
  unfold limited limitedList
  cases s.count with
  | none =>
    dsimp only
    rw [Run.items_filter, Run.items_takeWhile]
  | some count =>
    dsimp only
    rw [Run.items_cut, Run.items_filter, Run.items_takeWhile]

theorem agree_limitedList {shows : Int → Prop} {left right : List Int}
    (agree : AgreeWhile shows left right) :
    AgreeWhile shows (s.limitedList left) (s.limitedList right) := by
  have started := (agree.takeWhile fun i => s.ends.all fun ends => decide (i ≤ ends.instant)).filter
    fun i => decide (s.start.instant ≤ i)
  unfold limitedList
  cases s.count with
  | none => exact started
  | some count => exact started.take count

/-- What follows behind the end or the count of a series does not matter. -/
theorem limitedList_append (whole : s.start.micros = 0) (closed : ¬s.StaysOpen) (rest : List Int) :
    s.limitedList (s.found.map Timestamp.instant ++ rest) =
      s.limitedList (s.found.map Timestamp.instant) := by
  unfold limitedList
  by_cases before : ∀ i ∈ s.found.map Timestamp.instant,
      (s.ends.all fun ends => decide (i ≤ ends.instant)) = true
  · have kept : s.found.filter s.isAfterStart =
        s.found.filter fun t => decide (s.start.instant ≤ t.instant) :=
      List.filter_congr fun t member => (isAfterStart_instant whole member).symm
    have passed : ∃ n, s.count = some n ∧
        n < ((s.found.map Timestamp.instant).filter fun i => decide (s.start.instant ≤ i)).length := by
      by_contra few
      refine closed ⟨fun t member => ?_, fun n counted => ?_⟩
      · rw [← s.isBeforeEnd_instant]
        exact before _ (List.mem_map_of_mem member)
      · refine Nat.not_lt.mp fun more => few ⟨n, counted, ?_⟩
        rw [kept] at more
        rw [List.filter_map, List.length_map]
        exact more
    obtain ⟨n, counted, more⟩ := passed
    rw [counted]
    dsimp only
    rw [List.takeWhile_append_of_pos before, List.takeWhile_eq_self_iff.mpr before,
      List.filter_append, List.take_append_of_le_length (Nat.le_of_lt more)]
  · rw [AgreeWhile.takeWhile_append_of_stop before]

/-- Two bare series that show the same instants, each on its own clock. -/
structure Parallel (s other : Series) : Prop where
  bare : s.IsBare
  otherBare : other.IsBare
  whole : s.start.micros = 0
  otherWhole : other.start.micros = 0
  instants : other.instantAfter = s.instantAfter
  begins : other.start.instant = s.start.instant
  ends : other.ends = s.ends
  count : other.count = s.count

theorem Parallel.limitedList (parallel : s.Parallel other) (l : List Int) :
    other.limitedList l = s.limitedList l := by
  unfold Series.limitedList
  rw [parallel.ends, parallel.count, parallel.begins]

theorem range'_split {few most : Nat} (le : few ≤ most) :
    List.range' 0 most = List.range' 0 few ++ List.range' few (most - few) := by
  have parts : few + (most - few) = most := by omega
  rw [← parts, ← List.range'_append_1, parts, Nat.zero_add]

theorem items_occurrences (whole : s.start.micros = 0) :
    (s.occurrences.map Timestamp.instant).items =
      s.limitedList (s.found.map Timestamp.instant) := by
  rw [map_occurrences whole, items_limited, Run.items_map]
  rfl

/-- Parallel series agree as far as the clocks of both show their instants. -/
theorem Parallel.agree (parallel : s.Parallel other) :
    AgreeWhile (fun i => Timestamp.Shows (s.start.offset.getD 0) i ∧
        Timestamp.Shows (other.start.offset.getD 0) i)
      (s.occurrences.map Timestamp.instant).items
      (other.occurrences.map Timestamp.instant).items := by
  rw [items_occurrences parallel.whole, items_occurrences parallel.otherWhole,
    parallel.limitedList, found_bare parallel.bare parallel.whole,
    found_bare parallel.otherBare parallel.otherWhole,
    parallel.instants]
  refine agree_limitedList
    ⟨(List.range' 0 (min s.stepsInside other.stepsInside)).map s.instantAfter,
      (List.range' (min s.stepsInside other.stepsInside)
        (s.stepsInside - min s.stepsInside other.stepsInside)).map s.instantAfter,
      (List.range' (min s.stepsInside other.stepsInside)
        (other.stepsInside - min s.stepsInside other.stepsInside)).map s.instantAfter, ?_, ?_, ?_⟩
  · rw [← List.map_append, ← range'_split (Nat.min_le_left ..)]
  · rw [← List.map_append, ← range'_split (Nat.min_le_right ..)]
  · rintro i member ⟨here, there⟩
    rw [← List.map_append] at member
    obtain ⟨steps, among, rfl⟩ := List.mem_map.mp member
    rw [shows_iff] at here
    rw [← parallel.instants, shows_iff] at there
    simp only [List.mem_append, List.mem_range'_1] at among
    omega

/-- Parallel series that come to their end or count are the same. -/
theorem Parallel.same (parallel : s.Parallel other) (closed : ¬s.StaysOpen)
    (otherClosed : ¬other.StaysOpen) :
    s.occurrences.map Timestamp.instant = other.occurrences.map Timestamp.instant := by
  have complete : (s.occurrences.map Timestamp.instant).ending = none := by
    rw [Run.ending_map]
    exact s.ending_occurrences.mpr fun stays => absurd stays closed
  have otherComplete : (other.occurrences.map Timestamp.instant).ending = none := by
    rw [Run.ending_map]
    exact other.ending_occurrences.mpr fun stays => absurd stays otherClosed
  rw [Run.eq_ofList complete, Run.eq_ofList otherComplete]
  refine congrArg _ ?_
  rw [items_occurrences parallel.whole, items_occurrences parallel.otherWhole]
  have here := found_bare parallel.bare parallel.whole
  have there := found_bare parallel.otherBare parallel.otherWhole
  rw [parallel.instants] at there
  -- the series with fewer steps decides, and the other goes on behind its end
  rcases Nat.le_total s.stepsInside other.stepsInside with fewer | fewer
  · rw [range'_split fewer, List.map_append, ← here] at there
    rw [there, parallel.limitedList, limitedList_append parallel.whole closed]
  · rw [range'_split fewer, List.map_append, ← there] at here
    rw [here, ← parallel.limitedList, limitedList_append parallel.otherWhole otherClosed]

end Series

end Recurrence
