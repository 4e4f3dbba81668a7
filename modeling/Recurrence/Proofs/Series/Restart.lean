import Mathlib.Data.List.Forall2
import Recurrence.Proofs.Run.Mapping
import Recurrence.Proofs.Series.Occurrences
import Recurrence.Proofs.Series.Range
import Recurrence.Proofs.Series.Search

namespace Recurrence.Series

/-- The series with another start, where nothing else that the start decides changes. -/
def restart (s : Series) (start : Timestamp) : Series := { s with start := start }

theorem shape_of_moment {s : Series} {day time : Nat} {t : Timestamp}
    (given : s.moment day time = .ok t) : t.offset = s.start.offset ∧ t.micros = 0 := by
  unfold moment Timestamp.make? at given
  split at given
  · cases given
    exact ⟨rfl, rfl⟩
  · cases given

section Restart

variable {s : Series} {start : Timestamp}

/-- Whether a time of day on the clock of a series and one on the clock of another
start are the same instant on every day. -/
def Together (s : Series) (start : Timestamp) (time other : Nat) : Prop :=
  ∀ day, 0 < day → (s.moment day time).map Timestamp.instant =
    ((s.restart start).moment day other).map Timestamp.instant

theorem map_momentsOfDay {day : Nat} (positive : 0 < day) {times others : List Nat}
    (together : List.Forall₂ (s.Together start) times others) {rest more : Unit → Run Fault Timestamp}
    (onward : (rest ()).map Timestamp.instant = (more ()).map Timestamp.instant) :
    (s.momentsOfDay day times rest).map Timestamp.instant =
      ((s.restart start).momentsOfDay day others more).map Timestamp.instant := by
  induction together with
  | nil => exact onward
  | cons first _ ih =>
    rw [momentsOfDay, momentsOfDay, Run.map_startWith, Run.map_startWith, first day positive]
    congr 1
    funext _
    exact ih

theorem map_moments {times others days : List Nat} (positive : ∀ day ∈ days, 0 < day)
    (together : List.Forall₂ (s.Together start) times others) :
    (s.moments times days).map Timestamp.instant =
      ((s.restart start).moments others days).map Timestamp.instant := by
  induction days with
  | nil => rfl
  | cons day days ih =>
    rw [moments, moments]
    exact map_momentsOfDay (positive day (List.mem_cons_self ..)) together
      (ih fun other member => positive other (List.mem_cons_of_mem _ member))

theorem together_getD {times others : List Nat}
    (together : List.Forall₂ (s.Together start) times others) {place : Nat}
    (bound : place < times.length) : s.Together start (times.getD place 0) (others.getD place 0) := by
  have within : place < others.length := by rwa [← together.length_eq]
  rw [List.getD_eq_getElem _ _ bound, List.getD_eq_getElem _ _ within]
  exact together.get bound within

theorem map_mapM {ε α β γ : Type} (f : β → γ) (read : α → Except ε β) (items : List α) :
    (items.mapM read).map (List.map f) = items.mapM fun a => (read a).map f := by
  induction items with
  | nil => rfl
  | cons a items ih =>
    rw [List.mapM_cons, List.mapM_cons, ← ih]
    cases read a with
    | error e => rfl
    | ok b => cases items.mapM read <;> rfl

theorem mapM_congr {ε α β : Type} {read other : α → Except ε β} {items : List α}
    (same : ∀ a ∈ items, read a = other a) : items.mapM read = items.mapM other := by
  induction items with
  | nil => rfl
  | cons a items ih =>
    rw [List.mapM_cons, List.mapM_cons, same a (List.mem_cons_self ..),
      ih fun b member => same b (List.mem_cons_of_mem _ member)]

theorem map_momentsAt {times others days : List Nat} (positive : ∀ day ∈ days, 0 < day)
    (together : List.Forall₂ (s.Together start) times others) :
    (s.momentsAt times days).map Timestamp.instant =
      ((s.restart start).momentsAt others days).map Timestamp.instant := by
  have length := together.length_eq
  have places : (s.restart start).places (days.length * others.length) =
      s.places (days.length * times.length) := by
    rw [length]
    rfl
  have found : ((s.places (days.length * times.length)).mapM fun place =>
        s.moment (days.getD (place / times.length) 0) (times.getD (place % times.length) 0)).map
        (List.map Timestamp.instant) =
      ((s.places (days.length * times.length)).mapM fun place =>
        (s.restart start).moment (days.getD (place / times.length) 0)
          (others.getD (place % times.length) 0)).map (List.map Timestamp.instant) := by
    rw [map_mapM, map_mapM]
    refine mapM_congr fun place member => ?_
    have bound := places_lt member
    have some : 0 < times.length :=
      Nat.pos_of_mul_pos_left (Nat.lt_of_le_of_lt (Nat.zero_le _) bound)
    have day : place / times.length < days.length := Nat.div_lt_of_lt_mul (by rwa [Nat.mul_comm])
    rw [List.getD_eq_getElem _ _ day]
    exact together_getD together (Nat.mod_lt place some) _ (positive _ (List.getElem_mem _))
  unfold momentsAt
  rw [places, ← length]
  dsimp only
  generalize (s.places (days.length * times.length)).mapM (fun place =>
    s.moment (days.getD (place / times.length) 0) (times.getD (place % times.length) 0)) = here
    at found ⊢
  generalize (s.places (days.length * times.length)).mapM (fun place =>
    (s.restart start).moment (days.getD (place / times.length) 0)
      (others.getD (place % times.length) 0)) = there at found ⊢
  cases here with
  | error fault =>
    cases there with
    | error other =>
      cases found
      rfl
    | ok moments => cases found
  | ok moments =>
    cases there with
    | error other => cases found
    | ok others =>
      rw [Run.map_ofList, Run.map_ofList]
      exact congrArg _ (Except.ok.inj found)

theorem map_candidates {times others days : List Nat} (positive : ∀ day ∈ days, 0 < day)
    (together : List.Forall₂ (s.Together start) times others) :
    (s.candidates times days).map Timestamp.instant =
      ((s.restart start).candidates others days).map Timestamp.instant := by
  have empty : others.isEmpty = times.isEmpty := by
    cases together <;> rfl
  unfold candidates
  rw [empty]
  change _ = (if s.setPositions.isEmpty || times.isEmpty then _ else _ : Run Fault Timestamp).map _
  split
  · exact map_moments positive together
  · exact map_momentsAt positive together

theorem nextPeriod_restart (long : s.frequency.isWithinDay = false) (passedOver : Bool)
    (period : Nat) : (s.restart start).nextPeriod passedOver period = s.nextPeriod passedOver period := by
  obtain ⟨frequency, interval⟩ := s
  cases frequency with
  | hourly | minutely | secondly => cases long
  | daily | weekly | monthly | yearly => rfl

/-- Days and longer periods are searched alike from two starts when the times of
day that the starts give are the same instants. -/
theorem map_search_restart (long : s.frequency.isWithinDay = false)
    (together : List.Forall₂ (s.Together start) s.dayTimes (s.restart start).dayTimes)
    {period : Nat} (later : s.firstPeriod ≤ period) :
    (s.search s.dayTimes period).map Timestamp.instant =
      ((s.restart start).search (s.restart start).dayTimes period).map Timestamp.instant := by
  have times (other : Series) (period : Nat) (isLong : other.frequency.isWithinDay = false) :
      other.times other.dayTimes period = other.dayTimes := by
    unfold times
    rw [isLong]
    rfl
  -- the periods left before the horizon get fewer with each step
  induction left : horizon s.frequency - period using Nat.strongRecOn generalizing period with
  | ind left ih =>
    by_cases inside : period < horizon s.frequency
    · have there : period < horizon (s.restart start).frequency := inside
      cases known : s.yearTable period with
      | error fault =>
        have same : (s.restart start).yearTable period = .error fault := known
        rw [search_unknown inside known, search_unknown there same]
      | ok table =>
        have positive : ∀ day ∈ s.kept table period, 0 < day := fun day member =>
          (mem_days later inside (List.mem_filter.mp member).1).1
        have same : (s.restart start).yearTable period = .ok table := known
        rw [search_inside inside known, search_inside there same, Run.map_append, Run.map_append,
          times s period long, times (s.restart start) period long]
        have first := map_candidates positive together
        have passesOver : (s.restart start).passesOver table period = s.passesOver table period := rfl
        have kept : (s.restart start).kept table period = s.kept table period := rfl
        rw [first, passesOver, kept, nextPeriod_restart long]
        congr 1
        funext _
        cases s.nextPeriod (s.passesOver table period) period with
        | error fault => rfl
        | ok next =>
          have beyond := next.2
          exact ih _ (by omega) (Nat.le_trans later (Nat.le_of_lt next.2)) rfl
    · have there : ¬period < horizon (s.restart start).frequency := inside
      rw [search_outside inside, search_outside there]

end Restart

theorem isBeforeEnd_instant (s : Series) (t : Timestamp) :
    (s.ends.all fun ends => decide (t.instant ≤ ends.instant)) = s.isBeforeEnd t := by
  unfold isBeforeEnd
  cases s.ends <;> rfl

theorem isAfterStart_instant {s : Series} (whole : s.start.micros = 0) {t : Timestamp}
    (member : t ∈ s.found) : decide (s.start.instant ≤ t.instant) = s.isAfterStart t := by
  obtain ⟨day, time, given⟩ := mem_search member
  obtain ⟨offset, micros⟩ := shape_of_moment given
  unfold isAfterStart Timestamp.instant
  rw [offset, micros, whole]
  have same : ((s.start.seconds : Int) - s.start.offset.getD 0) * 1000000 + ((0 : Nat) : Int) ≤
      ((t.seconds : Int) - s.start.offset.getD 0) * 1000000 + ((0 : Nat) : Int) ↔
      s.start.seconds ≤ t.seconds := by omega
  exact decide_eq_decide.mpr same

/-- What the end and the count of a series, and its start, leave of a search. -/
def limited (s : Series) (run : Run Fault Int) : Run Fault Int :=
  let started := (run.takeWhile fun i => s.ends.all fun ends => i ≤ ends.instant).filter fun i =>
    s.start.instant ≤ i
  match s.count with
  | none => started
  | some count => started.cut count

theorem limited_congr {s other : Series} (ends : other.ends = s.ends) (count : other.count = s.count)
    (begins : other.start.instant = s.start.instant) (run : Run Fault Int) :
    other.limited run = s.limited run := by
  unfold limited
  rw [ends, count, begins]

/-- The instants of a series are decided by those that the search comes to. -/
theorem map_occurrences {s : Series} (whole : s.start.micros = 0) :
    s.occurrences.map Timestamp.instant =
      s.limited ((s.search s.dayTimes s.firstPeriod).map Timestamp.instant) := by
  have started : s.unlimited.map Timestamp.instant =
      (((s.search s.dayTimes s.firstPeriod).map Timestamp.instant).takeWhile fun i =>
        s.ends.all fun ends => i ≤ ends.instant).filter fun i => s.start.instant ≤ i := by
    rw [← Run.map_takeWhile s.isBeforeEnd_instant]
    refine Run.map_filter fun t member => isAfterStart_instant whole ?_
    rw [Run.items_takeWhile] at member
    exact (List.takeWhile_sublist _).subset member
  unfold occurrences limited
  cases s.count with
  | none => exact started
  | some count =>
    dsimp only
    rw [Run.map_cut, started]

end Recurrence.Series
