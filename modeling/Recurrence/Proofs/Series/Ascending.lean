import Recurrence.Proofs.Series.PickOrder
import Recurrence.Proofs.Series.Restart
import Recurrence.Proofs.Series.Weeks

namespace Recurrence.Series

variable {s : Series}

theorem second_of_moment {day time : Nat} {t : Timestamp} (positive : 0 < day)
    (given : s.moment day time = .ok t) : t.seconds + 86400 = secondOf (day, time) := by
  unfold moment Timestamp.make? at given
  split at given
  · cases given
    simp only [Int.toNat_natCast, secondOf]
    omega
  · cases given

theorem seconds_of_given {front : List (Nat × Nat)} {moments : List Timestamp}
    (positive : ∀ pick ∈ front, 0 < pick.1)
    (each : List.Forall₂ (fun pick t => s.moment pick.1 pick.2 = .ok t) front moments) :
    moments.map (fun t => t.seconds + 86400) = front.map secondOf := by
  induction each with
  | nil => rfl
  | cons given _ ih =>
    rw [List.forall_mem_cons] at positive
    rw [List.map_cons, List.map_cons, second_of_moment positive.1 given, ih positive.2]

/-- Counted from day zero, the seconds of the candidates begin those of the picks. -/
theorem seconds_candidates (s : Series) (times : List Nat) {days : List Nat}
    (positive : ∀ day ∈ days, 0 < day) :
    (s.candidates times days).items.map (fun t => t.seconds + 86400) <+:
      (s.picks times days).map secondOf := by
  obtain ⟨front, isFront, each⟩ := s.shows_candidates times days
  rw [seconds_of_given (fun pick member => positive _ (mem_picks (isFront.subset member)).1) each]
  exact isFront.map _

/-- The second at which a period begins, counted from day zero. -/
def begins (s : Series) (period : Nat) : Nat :=
  if s.frequency.isWithinDay then period * (86400 / unitsPerDay s.frequency)
  else s.firstDay period * 86400

/-- The second at which a period is over, counted from day zero. -/
def closes (s : Series) (period : Nat) : Nat :=
  if s.frequency.isWithinDay then (period + 1) * (86400 / unitsPerDay s.frequency)
  else (s.firstDay period + s.length period) * 86400

theorem begins_le_closes (s : Series) (period : Nat) : s.begins period ≤ s.closes period := by
  unfold begins closes
  split
  · exact Nat.mul_le_mul_right _ (Nat.le_succ _)
  · exact Nat.mul_le_mul_right _ (Nat.le_add_right ..)

theorem firstDay_succ {period : Nat} (calendar : s.frequency ∈ [.yearly, .monthly, .daily])
    (bound : s.firstPeriod ≤ period) :
    s.firstDay (period + 1) = s.firstDay period + s.length period := by
  have year := (Date.isValid_iff.mp s.start.date_isValid).1
  unfold firstPeriod at bound
  unfold firstDay length
  cases kind : s.frequency with
  | yearly =>
    simp only [kind] at bound ⊢
    rw [Date.daysBeforeYear_succ (by omega)]
    omega
  | monthly =>
    simp only [kind] at bound ⊢
    by_cases december : period % 12 = 11
    · have turn : (period + 1) / 12 = period / 12 + 1 ∧ (period + 1) % 12 = 0 := by omega
      have whole := Date.daysBeforeMonth_thirteen (period / 12)
      have last : Date.daysBeforeMonth (period / 12) 13 =
          Date.daysBeforeMonth (period / 12) (11 + 1) + Date.monthLength (period / 12) (11 + 1) :=
        Date.daysBeforeMonth_succ ..
      have first : Date.daysBeforeMonth (period / 12 + 1) (0 + 1) = 0 := rfl
      rw [turn.1, turn.2, december, Date.daysBeforeYear_succ (by omega), first]
      omega
    · have same : (period + 1) / 12 = period / 12 ∧ (period + 1) % 12 = period % 12 + 1 := by omega
      rw [same.1, same.2, Date.daysBeforeMonth_succ]
      omega
  | daily => simp only [unitsPerDay, Nat.div_one]
  | _ =>
    rw [kind] at calendar
    exact absurd calendar (by decide)

theorem firstDay_mono {period next : Nat} (calendar : s.frequency ∈ [.yearly, .monthly, .daily])
    (bound : s.firstPeriod ≤ period) (later : period ≤ next) : s.firstDay period ≤ s.firstDay next := by
  induction later with
  | refl => exact Nat.le_refl _
  | step later ih =>
    rw [Nat.succ_eq_add_one, firstDay_succ calendar (Nat.le_trans bound later)]
    omega

/-- A period is over when the next one begins. -/
theorem closes_le_begins {period : Nat} (reached : s.Reaches period) {passedOver : Bool}
    {next : { next : Nat // period < next }} (way : s.nextPeriod passedOver period = .ok next) :
    s.closes period ≤ s.begins next.1 := by
  have later := next.2
  unfold closes begins
  by_cases within : s.frequency.isWithinDay = true
  · rw [if_pos within, if_pos within]
    exact Nat.mul_le_mul_right _ later
  rw [if_neg within, if_neg within]
  refine Nat.mul_le_mul_right _ ?_
  by_cases weekly : s.frequency = .weekly
  · obtain ⟨_, same⟩ := nextPeriod_weekly weekly passedOver period
    cases way.symm.trans same
    have positive := s.interval_pos
    have first (week : Nat) : s.firstDay week = week := by
      rw [firstDay, weekly]
      exact Nat.div_one week
    rw [first, first, length_weekly weekly]
    dsimp only
    omega
  · have calendar : s.frequency ∈ [.yearly, .monthly, .daily] := by
      revert within weekly
      cases s.frequency <;> decide
    have bound := firstPeriod_le reached
    rw [← firstDay_succ calendar bound]
    exact firstDay_mono calendar (Nat.le_succ_of_le bound) later

/-- The times of a period within the day are those of its own unit. -/
theorem times_within (within : s.frequency.isWithinDay = true) {period time : Nat}
    (member : time ∈ s.times s.dayTimes period) :
    period % unitsPerDay s.frequency * (86400 / unitsPerDay s.frequency) ≤ time ∧
      time < (period % unitsPerDay s.frequency + 1) * (86400 / unitsPerDay s.frequency) := by
  unfold times at member
  rw [within, Bool.not_true, if_neg Bool.false_ne_true] at member
  split at member
  · cases member
  obtain ⟨hour, only, member⟩ := List.mem_flatMap.mp member
  obtain ⟨minute, inMinutes, member⟩ := List.mem_flatMap.mp member
  obtain ⟨second, inSeconds, rfl⟩ := List.mem_map.mp member
  rw [List.mem_singleton.mp only]
  unfold clock at *
  cases kind : s.frequency with
  | hourly =>
    simp only [kind, unitsPerDay, Frequency.isWithinHour, Frequency.isWithinMinute, if_false,
      Bool.false_eq_true] at *
    have := s.minuteChoice_lt _ inMinutes
    have := s.secondChoice_lt _ inSeconds
    omega
  | minutely =>
    simp only [kind, unitsPerDay, Frequency.isWithinHour, Frequency.isWithinMinute, if_false,
      if_true, Bool.false_eq_true, List.mem_singleton] at *
    have := s.secondChoice_lt _ inSeconds
    omega
  | secondly =>
    simp only [kind, unitsPerDay, Frequency.isWithinHour, Frequency.isWithinMinute, if_true,
      List.mem_singleton] at *
    omega
  | _ =>
    rw [kind] at within
    cases within

theorem unit_of_day (f : Frequency) : unitsPerDay f * (86400 / unitsPerDay f) = 86400 := by
  cases f <;> rfl

theorem day_within (within : s.frequency.isWithinDay = true) {period day : Nat}
    (member : day ∈ s.days period) : day = period / unitsPerDay s.frequency := by
  rw [days, List.mem_range'_1] at member
  unfold firstDay length at member
  revert within member
  cases s.frequency
  case hourly | minutely | secondly =>
    dsimp only
    intro _ member
    omega
  all_goals
    intro within
    cases within

/-- What is picked in a period lies between its beginning and its end. -/
theorem secondOf_bounds {table : YearTable} {period : Nat} {pick : Nat × Nat}
    (member : pick ∈ s.picks (s.times s.dayTimes period) (s.kept table period)) :
    s.begins period ≤ secondOf pick ∧ secondOf pick < s.closes period := by
  obtain ⟨day, time⟩ := mem_picks member
  have early := s.times_lt period _ time
  have day := (List.mem_filter.mp day).1
  unfold begins closes secondOf
  by_cases within : s.frequency.isWithinDay = true
  · rw [if_pos within, if_pos within, day_within within day]
    obtain ⟨low, high⟩ := times_within within time
    have parts : period * (86400 / unitsPerDay s.frequency) =
        period / unitsPerDay s.frequency * 86400 +
          period % unitsPerDay s.frequency * (86400 / unitsPerDay s.frequency) := by
      have whole := Nat.mod_add_div period (unitsPerDay s.frequency)
      conv_lhs => rw [← whole, Nat.add_mul, Nat.mul_right_comm, unit_of_day]
      rw [Nat.add_comm, Nat.mul_comm 86400]
    rw [Nat.succ_mul] at high ⊢
    omega
  · rw [if_neg within, if_neg within]
    rw [days, List.mem_range'_1] at day
    omega

theorem days_pos (table : YearTable) {period : Nat} (reached : s.Reaches period)
    (inside : period < horizon s.frequency) : ∀ day ∈ s.kept table period, 0 < day :=
  fun _ member => (mem_days (firstPeriod_le reached) inside (List.mem_filter.mp member).1).1

/-- Whether moments grow from a second on, counted from day zero. -/
def GrowFrom (second : Nat) (moments : List Timestamp) : Prop :=
  (moments.map fun t => t.seconds + 86400).Pairwise (· < ·) ∧
    ∀ t ∈ moments, second ≤ t.seconds + 86400

theorem growFrom_candidates (table : YearTable) {period : Nat} (reached : s.Reaches period)
    (inside : period < horizon s.frequency) :
    GrowFrom (s.begins period)
        (s.candidates (s.times s.dayTimes period) (s.kept table period)).items ∧
      ∀ t ∈ (s.candidates (s.times s.dayTimes period) (s.kept table period)).items,
        t.seconds + 86400 < s.closes period := by
  have first := s.seconds_candidates (s.times s.dayTimes period) (days_pos table reached inside)
  have picked (t : Timestamp)
      (member : t ∈ (s.candidates (s.times s.dayTimes period) (s.kept table period)).items) :
      s.begins period ≤ t.seconds + 86400 ∧ t.seconds + 86400 < s.closes period := by
    have among := first.subset (List.mem_map_of_mem member)
    obtain ⟨pick, member, same⟩ := List.mem_map.mp among
    rw [← same]
    exact secondOf_bounds member
  refine ⟨⟨?_, fun t member => (picked t member).1⟩, fun t member => (picked t member).2⟩
  exact (s.picks_ascending (s.times_ascending period) (s.kept_ascending table period)
    (s.times_lt period)).sublist first.sublist

theorem growFrom_nil (second : Nat) : GrowFrom second [] :=
  ⟨List.Pairwise.nil, fun _ member => nomatch member⟩

theorem GrowFrom.append {low middle high : Nat} {run : Run Fault Timestamp}
    {more : Unit → Run Fault Timestamp} (grow : GrowFrom low run.items)
    (before : ∀ t ∈ run.items, t.seconds + 86400 < middle) (ordered : low ≤ middle)
    (turn : middle ≤ high) (onward : GrowFrom high (more ()).items) :
    GrowFrom low (run.append more).items := by
  cases ending : run.ending with
  | some fault => rwa [Run.items_append_of_failed ending]
  | none =>
    rw [Run.items_append _ _ ending]
    constructor
    · rw [List.map_append, List.pairwise_append]
      refine ⟨grow.1, onward.1, fun first inFront second inRest => ?_⟩
      obtain ⟨t, member, rfl⟩ := List.mem_map.mp inFront
      obtain ⟨u, later, rfl⟩ := List.mem_map.mp inRest
      exact Nat.lt_of_lt_of_le (before t member) (Nat.le_trans turn (onward.2 u later))
    · intro t member
      rcases List.mem_append.mp member with inFront | inRest
      · exact grow.2 t inFront
      · exact Nat.le_trans (Nat.le_trans ordered turn) (onward.2 t inRest)

/-- From every period that is reached, the search goes forward. -/
theorem growFrom_search {period : Nat} (reached : s.Reaches period) :
    GrowFrom (s.begins period) (s.search s.dayTimes period).items := by
  revert reached
  refine search_induction (s := s) (motive := fun period run => s.Reaches period →
    GrowFrom (s.begins period) run.items) ?_ ?_ ?_ ?_ period
  · exact fun period _ => growFrom_nil _
  · exact fun period _ _ => growFrom_nil _
  · intro period table fault inside known reached
    obtain ⟨grow, before⟩ := growFrom_candidates table reached inside
    exact grow.append before (s.begins_le_closes period) (Nat.le_refl _) (growFrom_nil _)
  · intro period table next inside known way ih reached
    obtain ⟨grow, before⟩ := growFrom_candidates table reached inside
    exact grow.append before (s.begins_le_closes period) (closes_le_begins reached way)
      (ih (.next reached inside known way))

theorem occurrences_sublist_unlimited (s : Series) :
    s.occurrences.items.Sublist s.unlimited.items := by
  unfold occurrences
  cases s.count with
  | none => exact List.Sublist.refl _
  | some count =>
    dsimp only
    rw [Run.items_cut]
    exact List.take_sublist ..

theorem occurrences_sublist (s : Series) : s.occurrences.items.Sublist s.found := by
  refine s.occurrences_sublist_unlimited.trans ?_
  rw [unlimited, Run.items_filter, Run.items_takeWhile]
  exact List.filter_sublist.trans (List.takeWhile_sublist _)

/-- What the search comes to is in order, each instant once. -/
theorem found_ascending (s : Series) : (s.found.map Timestamp.instant).Pairwise (· < ·) := by
  have grow := (growFrom_search (s := s) .first).1
  rw [List.pairwise_map] at grow ⊢
  refine grow.imp_of_mem fun {first second} atFirst atSecond less => ?_
  obtain ⟨_, _, given⟩ := mem_search atFirst
  obtain ⟨_, _, later⟩ := mem_search atSecond
  obtain ⟨offset, micros⟩ := shape_of_moment given
  obtain ⟨offset', micros'⟩ := shape_of_moment later
  unfold Timestamp.instant
  rw [offset, offset', micros, micros']
  omega

/-- The occurrences of a series are given in order, each instant once. -/
theorem occurrences_ascending (s : Series) :
    (s.occurrences.items.map Timestamp.instant).Pairwise (· < ·) :=
  s.found_ascending.sublist (s.occurrences_sublist.map _)

end Recurrence.Series
