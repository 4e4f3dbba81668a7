import Recurrence.Proofs.Calendar.Moving
import Recurrence.Proofs.Series.Members

namespace Recurrence.Series

/-- Whether a series goes from period to period in steps of which each comes to one
moment at most. `At` says of a step and a period that they belong together, and `shown`
is the moment that the step comes to, if there is one. A period that is not searched to
its end is the last of which anything is shown. -/
structure Progresses (s : Series) (At : Nat → Nat → Prop) (shown : Nat → Option Timestamp) :
    Prop where
  first : At 0 s.firstPeriod
  onward : ∀ {step period : Nat}, At step period → period < horizon s.frequency →
    ∃ table next, s.yearTable period = .ok table ∧
      s.nextPeriod (s.passesOver table period) period = .ok next ∧ At (step + 1) next.1 ∧
      (s.candidates (s.times s.dayTimes period) (s.kept table period)).items =
        (shown step).toList ∧
      ((s.candidates (s.times s.dayTimes period) (s.kept table period)).ending = none ∨
        ∀ later, step ≤ later → shown later = none)
  outside : ∀ {step period : Nat}, At step period → ¬period < horizon s.frequency →
    ∀ later, step ≤ later → shown later = none

theorem filterMap_range'_of_none {α : Type} {shown : Nat → Option α} {step : Nat}
    (nothing : ∀ later, step ≤ later → shown later = none) (count : Nat) :
    (List.range' step count).filterMap shown = [] :=
  List.filterMap_eq_nil_iff.mpr fun later member => nothing later (List.mem_range'_1.mp member).1

/-- What is shown from a step on, as far as anything is, begins with what that step shows. -/
theorem filterMap_range'_step {α : Type} {shown : Nat → Option α} {last : Nat}
    (nothing : ∀ later, last ≤ later → shown later = none) (step : Nat) :
    (List.range' step (last - step)).filterMap shown =
      (shown step).toList ++ (List.range' (step + 1) (last - (step + 1))).filterMap shown := by
  by_cases before : step < last
  · have more : last - step = last - (step + 1) + 1 := by omega
    rw [more, List.range'_succ, List.filterMap_cons]
    cases shown step <;> rfl
  · have behind : last - step = 0 ∧ last - (step + 1) = 0 := by omega
    rw [behind.1, behind.2, nothing step (Nat.not_lt.mp before)]
    rfl

variable {s : Series} {At : Nat → Nat → Prop} {shown : Nat → Option Timestamp}

/-- From every step on, the search comes to what is shown, until nothing is shown any more. -/
theorem Progresses.items_search (progresses : s.Progresses At shown) {last : Nat}
    (nothing : ∀ later, last ≤ later → shown later = none) {step period : Nat}
    (here : At step period) : (s.search s.dayTimes period).items =
      (List.range' step (last - step)).filterMap shown := by
  -- the periods left before the horizon get fewer with each step
  induction left : horizon s.frequency - period using Nat.strongRecOn generalizing step period with
  | ind left ih =>
    by_cases inside : period < horizon s.frequency
    · obtain ⟨table, next, known, way, there, items, ending⟩ := progresses.onward here inside
      have beyond := next.2
      have rest := ih _ (by omega) there rfl
      rw [search_inside inside known, way]
      cases stuck : (s.candidates (s.times s.dayTimes period) (s.kept table period)).ending with
      | none =>
        rw [Run.items_append _ _ stuck, items, filterMap_range'_step nothing]
        exact congrArg _ rest
      | some fault =>
        obtain complete | closed := ending
        · cases stuck.symm.trans complete
        · rw [Run.items_append_of_failed stuck, items, closed step (Nat.le_refl _),
            filterMap_range'_of_none closed]
          rfl
    · rw [search_outside inside, filterMap_range'_of_none (progresses.outside here inside)]
      rfl

theorem Progresses.found (progresses : s.Progresses At shown) {last : Nat}
    (nothing : ∀ later, last ≤ later → shown later = none) :
    s.found = (List.range last).filterMap shown := by
  rw [List.range_eq_range']
  exact progresses.items_search nothing progresses.first

/-- A series with neither end nor count that shows its start first gives all that is shown. -/
theorem Progresses.occurrences (progresses : s.Progresses At shown) (whole : s.start.micros = 0)
    (uncounted : s.count = none) (endless : s.ends = none) (begins : shown 0 = some s.start) {last : Nat}
    (nothing : ∀ later, last ≤ later → shown later = none) :
    s.occurrences.items = (List.range last).filterMap shown := by
  have all := progresses.found nothing
  have first : s.found = s.start :: (List.range' 1 (last - 1)).filterMap shown := by
    rw [all, List.range_eq_range', ← Nat.sub_zero last, filterMap_range'_step nothing, begins]
    rfl
  -- the search goes forward from the start, so that nothing before it is found
  have later : ∀ t ∈ s.found, s.start.instant ≤ t.instant := by
    have ascending := s.found_ascending
    rw [first, List.map_cons, List.pairwise_cons] at ascending
    rw [first]
    intro t member
    rcases List.mem_cons.mp member with rfl | member
    · exact Int.le_refl _
    · exact Int.le_of_lt (ascending.1 _ (List.mem_map_of_mem member))
  have unlimited : s.occurrences = s.unlimited := by
    unfold Series.occurrences
    rw [uncounted]
  rw [unlimited, items_unlimited, ← all]
  refine List.filter_eq_self.mpr fun t member => ?_
  rw [Bool.and_eq_true, ← isAfterStart_instant whole member, decide_eq_true_eq, isBeforeEnd_iff, endless]
  exact ⟨later t member, fun _ same => nomatch same⟩

/-- One day and one time of day are one moment, or none behind the last year. -/
theorem candidates_single (unplaced : s.setPositions = []) (day time : Nat) :
    s.candidates [time] [day] = Run.startWith (s.moment day time) fun _ => .done := by
  unfold candidates
  rw [unplaced]
  rfl

theorem items_startWith_ifMissing (fault : Fault) (found : Option Timestamp) :
    (Run.startWith (fault.ifMissing found) fun _ => .done).items = found.toList := by
  cases found <;> rfl

theorem moment_of_seconds (whole : s.start.micros = 0) {seconds : Nat}
    {shown : Option Timestamp} (made : Timestamp.make? seconds s.start.micros s.start.offset = shown) :
    s.moment (seconds / 86400 + 1) (seconds % 86400) = Fault.badValue.ifMissing shown := by
  have clock : (seconds / 86400 + 1 - 1) * 86400 + seconds % 86400 = seconds := by omega
  rw [moment, clock, ← made, whole]

theorem moment_of_date (whole : s.start.micros = 0) {d : Date} (valid : d.isValid = true) :
    s.moment d.number s.start.secondOfDay = Fault.badValue.ifMissing (s.start.onDate? d) := by
  have inDay : s.start.secondOfDay < 86400 := Nat.mod_lt _ (by decide)
  rw [moment, Timestamp.onDate?, Timestamp.ofParts?, if_pos ⟨valid, inDay⟩, whole]

end Recurrence.Series
