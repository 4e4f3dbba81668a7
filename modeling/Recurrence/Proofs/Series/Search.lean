import Recurrence.Proofs.Series.Candidates
import Recurrence.Series.Search

namespace Recurrence.Series

/-- The days of a period that the series chooses. -/
def kept (s : Series) (table : YearTable) (period : Nat) : List Nat :=
  (s.days period).filter (s.keeps table)

/-- Whether some day of a period is not chosen. -/
def passesOver (s : Series) (table : YearTable) (period : Nat) : Bool :=
  (s.kept table period).length < (s.days period).length

/-- The periods that the search comes to when nothing stops it. -/
inductive Reaches (s : Series) : Nat → Prop
  | first : s.Reaches s.firstPeriod
  | next {period : Nat} {table : YearTable} {next : { next : Nat // period < next }}
      (reached : s.Reaches period) (inside : period < horizon s.frequency)
      (known : s.yearTable period = .ok table)
      (way : s.nextPeriod (s.passesOver table period) period = .ok next) : s.Reaches next.1

/-- Whether a period is searched without an error, and so is the way to the next. -/
def Runs (s : Series) (period : Nat) : Prop :=
  ∃ table, s.yearTable period = .ok table ∧
    (s.candidates (s.times s.dayTimes period) (s.kept table period)).ending = none ∧
    ∃ next, s.nextPeriod (s.passesOver table period) period = .ok next

theorem search_outside {s : Series} {period : Nat} (outside : ¬period < horizon s.frequency) :
    s.search s.dayTimes period = .done := by
  rw [search, dif_neg outside]

theorem search_unknown {s : Series} {period : Nat} (inside : period < horizon s.frequency)
    {fault : Fault} (unknown : s.yearTable period = .error fault) :
    s.search s.dayTimes period = .failed fault := by
  rw [search, dif_pos inside, unknown]

/-- The search of a period goes through its moments and then on from the next. -/
theorem search_inside {s : Series} {period : Nat} (inside : period < horizon s.frequency)
    {table : YearTable} (known : s.yearTable period = .ok table) :
    s.search s.dayTimes period =
      (s.candidates (s.times s.dayTimes period) (s.kept table period)).append fun _ =>
        match s.nextPeriod (s.passesOver table period) period with
        | .error fault => .failed fault
        | .ok next => s.search s.dayTimes next.1 := by
  rw [search, dif_pos inside, known]
  have same : decide (((s.days period).filter (s.keeps table)).length < (s.days period).length) =
      s.passesOver table period := rfl
  dsimp only
  rw [same, ← kept]
  cases s.nextPeriod (s.passesOver table period) period with
  | error fault =>
    cases s.candidates (s.times s.dayTimes period) (s.kept table period) <;> rfl
  | ok next =>
    cases s.candidates (s.times s.dayTimes period) (s.kept table period) <;> rfl

/-- One step: the search from a period is complete when the period runs and the
search from the next one is complete. -/
theorem ending_search {s : Series} {period : Nat} (inside : period < horizon s.frequency) :
    (s.search s.dayTimes period).ending = none ↔
      s.Runs period ∧ ∀ table, s.yearTable period = .ok table →
        ∀ next, s.nextPeriod (s.passesOver table period) period = .ok next →
          (s.search s.dayTimes next.1).ending = none := by
  cases known : s.yearTable period with
  | error fault =>
    rw [search_unknown inside known]
    refine iff_of_false (fun complete => nomatch complete) ?_
    rintro ⟨⟨_, found, _⟩, _⟩
    cases known.symm.trans found
  | ok table =>
    rw [search_inside inside known, Run.ending_append]
    constructor
    · intro complete
      split at complete
      · rename_i found
        split at complete
        · cases complete
        · rename_i next way
          refine ⟨⟨table, known, found, next, way⟩, fun other same there onward => ?_⟩
          cases same
          cases way.symm.trans onward
          exact complete
      · cases complete
    · rintro ⟨⟨other, same, found, next, way⟩, onward⟩
      cases known.symm.trans same
      rw [found, way]
      exact onward table rfl next way

theorem ending_search_of_reaches {s : Series}
    (complete : (s.search s.dayTimes s.firstPeriod).ending = none) {period : Nat}
    (reached : s.Reaches period) : (s.search s.dayTimes period).ending = none := by
  induction reached with
  | first => exact complete
  | next _ inside known way ih => exact ((ending_search inside).mp ih).2 _ known _ way

theorem ending_search_of_runs {s : Series}
    (runs : ∀ period, s.Reaches period → period < horizon s.frequency → s.Runs period)
    {period : Nat} (reached : s.Reaches period) : (s.search s.dayTimes period).ending = none := by
  -- the periods left before the horizon get fewer with each step
  induction left : horizon s.frequency - period using Nat.strongRecOn generalizing period with
  | ind left ih =>
    by_cases inside : period < horizon s.frequency
    · refine (ending_search inside).mpr ⟨runs period reached inside, fun table known next way => ?_⟩
      have later := next.2
      exact ih _ (by omega) (.next reached inside known way) rfl
    · rw [search_outside inside]
      rfl

/-- The search is complete exactly when every period that it reaches runs. -/
theorem ending_search_iff {s : Series} :
    (s.search s.dayTimes s.firstPeriod).ending = none ↔
      ∀ period, s.Reaches period → period < horizon s.frequency → s.Runs period :=
  ⟨fun complete _ reached inside =>
    ((ending_search inside).mp (ending_search_of_reaches complete reached)).1,
    fun runs => ending_search_of_runs runs .first⟩

/-- What holds where the search ends or fails at once, and of a period as soon as it
does of the next one, holds of the search from every period on. -/
theorem search_induction {s : Series} {motive : Nat → Run Fault Timestamp → Prop}
    (outside : ∀ period, motive period .done)
    (unknown : ∀ period fault, motive period (.failed fault))
    (stuck : ∀ period table fault, period < horizon s.frequency → s.yearTable period = .ok table →
      motive period ((s.candidates (s.times s.dayTimes period) (s.kept table period)).append
        fun _ => .failed fault))
    (onward : ∀ period table next, period < horizon s.frequency → s.yearTable period = .ok table →
      s.nextPeriod (s.passesOver table period) period = .ok next →
      motive next.1 (s.search s.dayTimes next.1) →
      motive period ((s.candidates (s.times s.dayTimes period) (s.kept table period)).append
        fun _ => s.search s.dayTimes next.1))
    (period : Nat) : motive period (s.search s.dayTimes period) := by
  -- the periods left before the horizon get fewer with each step
  induction left : horizon s.frequency - period using Nat.strongRecOn generalizing period with
  | ind left ih =>
    by_cases inside : period < horizon s.frequency
    · cases known : s.yearTable period with
      | error fault =>
        rw [search_unknown inside known]
        exact unknown period fault
      | ok table =>
        rw [search_inside inside known]
        cases way : s.nextPeriod (s.passesOver table period) period with
        | error fault => exact stuck period table fault inside known
        | ok next =>
          have beyond := next.2
          exact onward period table next inside known way (ih _ (by omega) next.1 rfl)
    · rw [search_outside inside]
      exact outside period

/-- What the search comes to are moments on the clock of the series. -/
theorem mem_search {s : Series} {period : Nat} {t : Timestamp}
    (member : t ∈ (s.search s.dayTimes period).items) : ∃ day time, s.moment day time = .ok t := by
  revert member
  refine search_induction (s := s) (motive := fun _ run => t ∈ run.items →
    ∃ day time, s.moment day time = .ok t) ?_ ?_ ?_ ?_ period
  · exact fun _ member => nomatch member
  · exact fun _ _ member => nomatch member
  · intro _ _ _ _ _ member
    exact (Run.mem_append member).elim mem_candidates fun later => nomatch later
  · intro _ _ _ _ _ _ ih member
    exact (Run.mem_append member).elim mem_candidates ih

theorem firstPeriod_le {s : Series} {period : Nat} (reached : s.Reaches period) :
    s.firstPeriod ≤ period := by
  induction reached with
  | first => exact Nat.le_refl _
  | @next _ _ next _ _ _ _ ih => exact Nat.le_trans ih (Nat.le_of_lt next.2)

end Recurrence.Series
