import Recurrence.Proofs.SameMembers
import Recurrence.Proofs.Series.Occurrences
import Recurrence.Proofs.Series.Ordinals
import Recurrence.Proofs.Series.PickOrder

namespace Recurrence

namespace YearWeeks

variable {numbers others : List Int}

theorem claimsLeftOver_eq (w : YearWeeks) (same : SameMembers numbers others) :
    w.claimsLeftOver numbers = w.claimsLeftOver others := by
  unfold claimsLeftOver
  rw [same.contains_eq, same.contains_eq]

/-- The days of numbered weeks do not depend on the order of the numbers. -/
theorem intervals_related (w : YearWeeks) (same : SameMembers numbers others) :
    Outcome.Related SameMembers (w.intervals numbers) (w.intervals others) := by
  unfold intervals
  dsimp only
  rw [w.claimsLeftOver_eq same, same.contains_eq]
  cases w.claimsLeftOver others with
  | error fault => exact .error fault
  | ok claims => exact .ok ((((same.filterMap _).map _).append _).append _)

end YearWeeks

namespace Series

/-- Whether two lists are both missing, or are there and have the same members. -/
def SameWanted (wanted other : Option (List Int)) : Prop :=
  wanted = none ∧ other = none ∨
    ∃ ns ms, wanted = some ns ∧ other = some ms ∧ SameMembers ns ms

section Wanted

variable {wanted other : Option (List Int)}

theorem SameWanted.refl (wanted : Option (List Int)) : SameWanted wanted wanted := by
  cases wanted with
  | none => exact .inl ⟨rfl, rfl⟩
  | some ns => exact .inr ⟨ns, ns, rfl, rfl, .refl ns⟩

theorem SameWanted.symm (same : SameWanted wanted other) : SameWanted other wanted := by
  rcases same with ⟨missing, nothing⟩ | ⟨ns, ms, given, offered, same⟩
  · exact .inl ⟨nothing, missing⟩
  · exact .inr ⟨ms, ns, offered, given, same.symm⟩

theorem SameWanted.chosen_eq (same : SameWanted wanted other) (size fallback : Nat) :
    chosen size wanted fallback = chosen size other fallback := by
  rcases same with ⟨rfl, rfl⟩ | ⟨ns, ms, rfl, rfl, same⟩
  · rfl
  · exact List.filter_congr fun n _ => same.contains_eq n

theorem SameWanted.admits_eq (same : SameWanted wanted other) (n : Nat) :
    admits wanted n = admits other n := by
  rcases same with ⟨rfl, rfl⟩ | ⟨ns, ms, rfl, rfl, same⟩
  · rfl
  · exact same.contains_eq n

/-- A day is wanted alike by its number, whichever end it is counted from. -/
theorem either_wanted_eq (fromStart fromEnd : Int) : SameWanted wanted other →
    (match wanted with
      | none => true
      | some ns => ns.contains fromStart || ns.contains fromEnd) =
    match other with
      | none => true
      | some ms => ms.contains fromStart || ms.contains fromEnd := by
  rintro (⟨rfl, rfl⟩ | ⟨ns, ms, rfl, rfl, same⟩)
  · rfl
  · dsimp only
    rw [same.contains_eq, same.contains_eq]

end Wanted

/-- Whether two series ask for the same in lists that have the same members. What they end
with does not matter. -/
structure Alike (s u : Series) : Prop where
  frequency : u.frequency = s.frequency
  interval : u.interval = s.interval
  weekStart : u.weekStart = s.weekStart
  start : u.start = s.start
  setPositions : SameMembers s.setPositions u.setPositions
  months : SameMembers s.months u.months
  monthDays : SameWanted s.monthDays u.monthDays
  yearDays : SameWanted s.yearDays u.yearDays
  weekNumbers : SameMembers s.weekNumbers u.weekNumbers
  weekdays : SameMembers s.weekdays u.weekdays
  ordinals : SameMembers s.ordinals u.ordinals
  hours : SameWanted s.hours u.hours
  minutes : SameWanted s.minutes u.minutes
  seconds : SameWanted s.seconds u.seconds

/-- Whether two tables say the same of the days of a year. -/
structure SameTable (table other : YearTable) : Prop where
  newYear : other.newYear = table.newYear
  weeks : SameMembers table.weeks other.weeks
  ordinals : SameMembers table.ordinals other.ordinals

theorem fault_of_ordinalDay {year first last : Nat} {n : Int} {day : Weekday} {fault : Fault}
    (failed : ordinalDay year first last n day = .error fault) : fault = .outOfBounds := by
  unfold ordinalDay at failed
  dsimp only at failed
  split at failed
  · split at failed
    · cases failed
      rfl
    · split at failed <;> cases failed
  · split at failed
    · cases failed
      rfl
    · cases failed

/-- The weekdays with an ordinal can only fail in one way. -/
theorem fault_of_ordinalDays {s : Series} {year month : Nat} {fault : Fault}
    (failed : s.ordinalDays year month = .error fault) : fault = .outOfBounds := by
  unfold ordinalDays at failed
  obtain failed | ⟨_, _, made⟩ := Outcome.bind_eq_error.mp failed
  · obtain ⟨_, stretch, _, _, _, failed⟩ := Outcome.mapM_eq_error_iff.mp failed
    obtain ⟨_, entry, _, _, _, failed⟩ := Outcome.mapM_eq_error_iff.mp failed
    exact fault_of_ordinalDay failed
  · cases made

/-- The number of intervals that a hop takes. -/
theorem map_hop? (s : Series) (period : Nat) :
    (s.hop? period).map Subtype.val =
      match s.ownUnit.1 with
      | none => some 1
      | some wanted => (List.range' 1 s.ownUnit.2).find? fun n =>
        wanted.contains (((period + n * s.interval) % s.ownUnit.2 : Nat) : Int) := by
  unfold hop?
  split
  · rename_i own
    rw [own]
    rfl
  · rename_i wanted round own
    rw [own]
    dsimp only
    split
    · rename_i missing
      exact missing.symm
    · rename_i n found
      exact found.symm

theorem map_seek (s : Series) (hops period : Nat) :
    (s.seek (hops + 1) period).map Subtype.val =
      match s.hop? period with
      | none => .error .wrongKind
      | some n =>
        if s.admitsPeriod (period + n.1 * s.interval) then .ok (period + n.1 * s.interval)
        else (s.seek hops (period + n.1 * s.interval)).map Subtype.val := by
  rw [seek]
  cases s.hop? period with
  | none => rfl
  | some n =>
    dsimp only
    split
    · rfl
    · cases s.seek hops (period + n.1 * s.interval) <;> rfl

theorem map_nextPeriod (s : Series) (passedOver : Bool) (period : Nat) :
    (s.nextPeriod passedOver period).map Subtype.val =
      match s.frequency with
      | .yearly | .monthly | .daily => .ok (period + s.interval)
      | .weekly =>
        .ok (period + s.interval * 7 - (Weekday.indexOfNumber period + 7 - s.weekStart.index) % 7)
      | f => (s.seek (unitsPerDay f / Nat.gcd s.interval (unitsPerDay f))
          (if passedOver then s.lastOfDay period else period)).map Subtype.val := by
  obtain ⟨frequency, interval⟩ := s
  unfold nextPeriod
  cases frequency with
  | yearly | monthly | daily | weekly => rfl
  | hourly | minutely | secondly =>
    dsimp only
    split <;> (rename_i found; rw [found]; rfl)

namespace Alike

variable {s u : Series}

theorem symm (alike : s.Alike u) : u.Alike s where
  frequency := alike.frequency.symm
  interval := alike.interval.symm
  weekStart := alike.weekStart.symm
  start := alike.start.symm
  setPositions := alike.setPositions.symm
  months := alike.months.symm
  monthDays := alike.monthDays.symm
  yearDays := alike.yearDays.symm
  weekNumbers := alike.weekNumbers.symm
  weekdays := alike.weekdays.symm
  ordinals := alike.ordinals.symm
  hours := alike.hours.symm
  minutes := alike.minutes.symm
  seconds := alike.seconds.symm

theorem dayTimes_eq (alike : s.Alike u) : s.dayTimes = u.dayTimes := by
  unfold dayTimes minuteChoice secondChoice
  rw [alike.start, alike.hours.chosen_eq, alike.minutes.chosen_eq, alike.seconds.chosen_eq]

theorem admitsPeriod_eq (alike : s.Alike u) (period : Nat) :
    s.admitsPeriod period = u.admitsPeriod period := by
  unfold admitsPeriod
  simp only [alike.frequency, alike.hours.admits_eq, alike.minutes.admits_eq, alike.seconds.admits_eq]

theorem times_eq (alike : s.Alike u) (period : Nat) :
    s.times s.dayTimes period = u.times u.dayTimes period := by
  unfold times minuteChoice secondChoice
  rw [alike.frequency, alike.start, alike.dayTimes_eq, alike.admitsPeriod_eq,
    alike.minutes.chosen_eq, alike.seconds.chosen_eq]

theorem firstPeriod_eq (alike : s.Alike u) : s.firstPeriod = u.firstPeriod := by
  unfold firstPeriod
  rw [alike.frequency, alike.start]

theorem firstDay_eq (alike : s.Alike u) (period : Nat) : s.firstDay period = u.firstDay period := by
  unfold firstDay
  rw [alike.frequency]

theorem days_eq (alike : s.Alike u) (period : Nat) : s.days period = u.days period := by
  unfold days length
  rw [alike.firstDay_eq, alike.frequency, alike.weekStart]

theorem neededWeeks_related (alike : s.Alike u) (year : Nat) :
    Outcome.Related SameMembers (s.neededWeeks year) (u.neededWeeks year) := by
  unfold neededWeeks
  rw [alike.weekNumbers.isEmpty_eq, alike.weekStart]
  split
  · exact .ok (.refl _)
  · exact YearWeeks.intervals_related _ alike.weekNumbers

theorem stretches_same (alike : s.Alike u) (year month : Nat) :
    SameMembers (s.stretches year month) (u.stretches year month) := by
  unfold stretches
  rw [alike.frequency, alike.months.isEmpty_eq]
  split
  · exact .refl _
  · split
    · exact .refl _
    · exact alike.months.map _

theorem ordinalDays_ok (alike : s.Alike u) {year month : Nat} {found : List Nat}
    (here : s.ordinalDays year month = .ok found) :
    ∃ others, u.ordinalDays year month = .ok others ∧ SameMembers found others := by
  have each := ordinalDays_ok_iff.mp ⟨found, here⟩
  obtain ⟨others, there⟩ : ∃ others, u.ordinalDays year month = .ok others := by
    rw [ordinalDays_ok_iff]
    intro stretch among entry chosen
    exact each stretch ((alike.stretches_same year month stretch).mpr among) entry
      ((alike.ordinals entry).mpr chosen)
  refine ⟨others, there, fun i => ?_⟩
  rw [mem_ordinalDays here, mem_ordinalDays there]
  simp only [alike.stretches_same year month _, alike.ordinals _]

theorem ordinalDays_related (alike : s.Alike u) (year month : Nat) :
    Outcome.Related SameMembers (s.ordinalDays year month) (u.ordinalDays year month) := by
  cases here : s.ordinalDays year month with
  | ok found =>
    obtain ⟨others, there, same⟩ := alike.ordinalDays_ok here
    rw [there]
    exact .ok same
  | error fault =>
    cases there : u.ordinalDays year month with
    | ok others =>
      obtain ⟨_, found, _⟩ := alike.symm.ordinalDays_ok there
      cases here.symm.trans found
    | error other =>
      rw [fault_of_ordinalDays here, fault_of_ordinalDays there]
      exact .error _

theorem neededOrdinals_related (alike : s.Alike u) (year month : Nat) :
    Outcome.Related SameMembers (s.neededOrdinals year month) (u.neededOrdinals year month) := by
  unfold neededOrdinals
  rw [alike.ordinals.isEmpty_eq]
  split
  · exact .ok (.refl _)
  · exact alike.ordinalDays_related year month

/-- What is looked up for a period is the same, or cannot be found for the same reason. -/
theorem yearTable_related (alike : s.Alike u) (period : Nat) :
    Outcome.Related SameTable (s.yearTable period) (u.yearTable period) := by
  unfold yearTable
  rw [alike.firstDay_eq]
  refine (alike.neededWeeks_related _).bind fun weeks others sameWeeks => ?_
  refine (alike.neededOrdinals_related _ _).bind fun days ordinals sameDays => ?_
  exact .ok ⟨rfl, sameWeeks, sameDays⟩

theorem keepsMonthDay_eq (alike : s.Alike u) (date : Date) :
    s.keepsMonthDay date = u.keepsMonthDay date :=
  either_wanted_eq _ _ alike.monthDays

theorem keepsYearDay_eq (alike : s.Alike u) (number : Nat) :
    s.keepsYearDay number = u.keepsYearDay number :=
  either_wanted_eq _ _ alike.yearDays

/-- The same days are chosen. -/
theorem keeps_eq (alike : s.Alike u) {table other : YearTable} (tables : SameTable table other) :
    s.keeps table = u.keeps other := by
  funext number
  have unlisted : s.monthDays.isNone = u.monthDays.isNone := by
    rcases alike.monthDays with ⟨missing, nothing⟩ | ⟨_, _, given, offered, _⟩
    · rw [missing, nothing]
    · rw [given, offered]
      rfl
  unfold keeps
  rw [alike.months.isEmpty_eq, alike.months.contains_eq, alike.weekNumbers.isEmpty_eq,
    tables.newYear, tables.weeks.any_eq, alike.weekdays.isEmpty_eq, alike.weekdays.any_eq,
    alike.ordinals.isEmpty_eq, tables.ordinals.contains_eq, unlisted, alike.keepsMonthDay_eq,
    alike.keepsYearDay_eq]

/-- The same places are meant, since they are brought into order and each is taken once. -/
theorem places_eq (alike : s.Alike u) (size : Nat) : s.places size = u.places size := by
  refine SameMembers.eq_of_ascending (fun place => ?_) (s.places_ascending size)
    (u.places_ascending size)
  unfold places
  rw [List.mem_eraseDups, List.mem_eraseDups, List.mem_mergeSort, List.mem_mergeSort]
  exact alike.setPositions.filterMap _ place

theorem moment_eq (alike : s.Alike u) : s.moment = u.moment := by
  unfold moment
  rw [alike.start]

theorem moments_eq (alike : s.Alike u) (times days : List Nat) :
    s.moments times days = u.moments times days := by
  have ofDay (day : Nat) (times : List Nat) (rest : Unit → Run Fault Timestamp) :
      s.momentsOfDay day times rest = u.momentsOfDay day times rest := by
    induction times with
    | nil => rfl
    | cons time times ih => rw [momentsOfDay, momentsOfDay, ih, alike.moment_eq]
  induction days with
  | nil => rfl
  | cons day days ih => rw [moments, moments, ih, ofDay]

theorem candidates_eq (alike : s.Alike u) (times days : List Nat) :
    s.candidates times days = u.candidates times days := by
  unfold candidates momentsAt
  rw [alike.setPositions.isEmpty_eq, alike.moments_eq, alike.places_eq, alike.moment_eq]

theorem ownUnit_same (alike : s.Alike u) :
    SameWanted s.ownUnit.1 u.ownUnit.1 ∧ u.ownUnit.2 = s.ownUnit.2 := by
  unfold ownUnit
  rw [alike.frequency]
  cases s.frequency with
  | hourly => exact ⟨alike.hours, rfl⟩
  | minutely => exact ⟨alike.minutes, rfl⟩
  | secondly => exact ⟨alike.seconds, rfl⟩
  | _ => exact ⟨.inl ⟨rfl, rfl⟩, rfl⟩

theorem hop?_eq (alike : s.Alike u) (period : Nat) : s.hop? period = u.hop? period := by
  obtain ⟨own, round⟩ := alike.ownUnit_same
  refine Option.map_injective Subtype.val_injective ?_
  rw [map_hop?, map_hop?, alike.interval, round]
  rcases own with ⟨missing, nothing⟩ | ⟨ns, ms, given, offered, same⟩
  · rw [missing, nothing]
  · rw [given, offered]
    simp only [same.contains_eq]

theorem seek_eq (alike : s.Alike u) (hops period : Nat) : s.seek hops period = u.seek hops period := by
  induction hops generalizing period with
  | zero => rfl
  | succ hops ih =>
    refine Outcome.map_injective Subtype.val_injective ?_
    rw [map_seek, map_seek, alike.hop?_eq, alike.interval]
    simp only [alike.admitsPeriod_eq, ih]

/-- The way on is the same. -/
theorem nextPeriod_eq (alike : s.Alike u) (passedOver : Bool) (period : Nat) :
    s.nextPeriod passedOver period = u.nextPeriod passedOver period := by
  refine Outcome.map_injective Subtype.val_injective ?_
  rw [map_nextPeriod, map_nextPeriod]
  unfold lastOfDay
  rw [alike.frequency, alike.interval, alike.weekStart]
  simp only [alike.seek_eq]

/-- Alike series are searched alike, up to the same error if there is one. -/
theorem search_eq (alike : s.Alike u) (period : Nat) :
    s.search s.dayTimes period = u.search u.dayTimes period := by
  -- the periods left before the horizon get fewer with each step
  induction left : horizon s.frequency - period using Nat.strongRecOn generalizing period with
  | ind left ih =>
    by_cases inside : period < horizon s.frequency
    · have within : period < horizon u.frequency := by rwa [alike.frequency]
      have tables := alike.yearTable_related period
      generalize here : s.yearTable period = table at tables
      generalize there : u.yearTable period = other at tables
      cases tables with
      | error fault => rw [search_unknown inside here, search_unknown within there]
      | @ok table other same =>
        have kept : s.kept table period = u.kept other period := by
          unfold kept
          rw [alike.days_eq, alike.keeps_eq same]
        have passes : s.passesOver table period = u.passesOver other period := by
          unfold passesOver
          rw [kept, alike.days_eq]
        rw [search_inside inside here, search_inside within there, kept, passes, alike.times_eq,
          alike.candidates_eq, alike.nextPeriod_eq]
        congr 1
        funext _
        cases u.nextPeriod (u.passesOver other period) period with
        | error fault => rfl
        | ok next =>
          have beyond := next.2
          exact ih _ (by omega) _ rfl
    · have outside : ¬period < horizon u.frequency := by rwa [alike.frequency]
      rw [search_outside inside, search_outside outside]

theorem found_eq (alike : s.Alike u) : s.found = u.found := by
  unfold found
  rw [alike.search_eq, alike.firstPeriod_eq]

theorem unlimited_eq (alike : s.Alike u) (ends : u.ends = s.ends) : s.unlimited = u.unlimited := by
  have before : s.isBeforeEnd = u.isBeforeEnd := by
    unfold isBeforeEnd
    rw [ends]
  have after : s.isAfterStart = u.isAfterStart := by
    unfold isAfterStart
    rw [alike.start]
  unfold unlimited
  rw [alike.search_eq, alike.firstPeriod_eq, before, after]

/-- Alike series with the same count and end have the same occurrences. -/
theorem occurrences_eq (alike : s.Alike u) (ends : u.ends = s.ends) (count : u.count = s.count) :
    s.occurrences = u.occurrences := by
  unfold occurrences
  rw [count, alike.unlimited_eq ends]

end Alike

end Series

end Recurrence
