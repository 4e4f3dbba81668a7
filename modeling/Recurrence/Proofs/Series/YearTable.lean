import Recurrence.Proofs.Outcome
import Recurrence.Proofs.Series.Range
import Recurrence.Proofs.Series.Soundness

namespace Recurrence

namespace YearWeeks

theorem claimsLeftOver_ok_iff {w : YearWeeks} {numbers : List Int} :
    (∃ claims, w.claimsLeftOver numbers = .ok claims) ↔
      w.leftOver = 0 ∨ -1 ∈ numbers ∨ 1 < w.year := by
  unfold claimsLeftOver
  split
  · rename_i nothing
    exact iff_of_true ⟨_, rfl⟩ (.inl nothing)
  · rename_i something
    split
    · rename_i last
      exact iff_of_true ⟨_, rfl⟩ (.inr (.inl (List.contains_iff_mem.mp last)))
    · rename_i notLast
      have missing : -1 ∉ numbers := fun member => notLast (List.contains_iff_mem.mpr member)
      split
      · rename_i first
        refine iff_of_false ?_ ?_
        · rintro ⟨_, claimed⟩
          cases claimed
        · rintro (nothing | last | later)
          · exact something nothing
          · exact missing last
          · omega
      · rename_i later
        exact iff_of_true ⟨_, rfl⟩ (.inr (.inr (Nat.lt_of_not_le later)))

/-- The numbered weeks of a year are found unless they ask for the year before
the first. -/
theorem intervals_ok_iff {w : YearWeeks} {numbers : List Int} :
    (∃ found, w.intervals numbers = .ok found) ↔
      w.leftOver = 0 ∨ -1 ∈ numbers ∨ 1 < w.year := by
  rw [← claimsLeftOver_ok_iff]
  simp only [intervals, Outcome.bind_eq_ok, Outcome.pure_eq_ok]
  constructor
  · rintro ⟨_, claims, claimed, _⟩
    exact ⟨claims, claimed⟩
  · rintro ⟨claims, claimed⟩
    exact ⟨_, claims, claimed, rfl⟩

/-- In year one, which begins on a Monday, days are left over before week one for
the weeks that begin on one of three days. -/
theorem leftOver_year_one (day : Weekday) :
    (⟨1, day⟩ : YearWeeks).leftOver = 0 ↔ day ∉ [.tuesday, .wednesday, .thursday] := by
  cases day <;> decide

theorem newYear_lt (year : Nat) : newYear year < 7 := Nat.mod_lt _ (by decide)

end YearWeeks

namespace Series

theorem ordinalDay_ok_iff {year first last : Nat} {n : Int} {day : Weekday} :
    (∃ found, ordinalDay year first last n day = .ok found) ↔
      (n < 0 → -(knownDays year : Int) ≤ last + (n + 1) * 7) ∧
      (0 ≤ n → first + (n - 1) * 7 < knownDays year) := by
  unfold ordinalDay
  dsimp only
  split
  · rename_i negative
    split
    · rename_i beyond
      refine iff_of_false ?_ fun bounds => ?_
      · rintro ⟨_, found⟩
        cases found
      · have := bounds.1 negative
        omega
    · split
      all_goals exact iff_of_true ⟨_, rfl⟩ ⟨fun _ => by omega, fun _ => by omega⟩
  · rename_i natural
    split
    · rename_i beyond
      refine iff_of_false ?_ fun bounds => ?_
      · rintro ⟨_, found⟩
        cases found
      · have := bounds.2 (by omega)
        omega
    · exact iff_of_true ⟨_, rfl⟩ ⟨fun _ => by omega, fun _ => by omega⟩

theorem ordinalDays_ok_iff {s : Series} {year month : Nat} :
    (∃ found, s.ordinalDays year month = .ok found) ↔
      ∀ stretch ∈ s.stretches year month, ∀ entry ∈ s.ordinals,
        ∃ found, ordinalDay year stretch.1 stretch.2 entry.1 entry.2 = .ok found := by
  have each (stretch : Nat × Nat) :
      (∀ entry ∈ s.ordinals, ∃ found, ordinalDay year stretch.1 stretch.2 entry.1 entry.2 = .ok found) ↔
        ∃ found, (s.ordinals.mapM fun entry =>
          ordinalDay year stretch.1 stretch.2 entry.1 entry.2) = .ok found :=
    Outcome.mapM_ok_iff.symm
  simp only [each]
  rw [← Outcome.mapM_ok_iff]
  simp only [ordinalDays, Outcome.bind_eq_ok, Outcome.pure_eq_ok]
  constructor
  · rintro ⟨_, found, read, _⟩
    exact ⟨found, read⟩
  · rintro ⟨found, read⟩
    exact ⟨_, found, read, rfl⟩

/-- The numbered weeks of a year are found unless the year is the first and asks
for the one before. -/
theorem neededWeeks_ok_iff {s : Series} {year : Nat} (positive : 1 ≤ year) :
    (∃ weeks, s.neededWeeks year = .ok weeks) ↔
      (s.weekNumbers ≠ [] → -1 ∉ s.weekNumbers →
        s.weekStart ∈ [.tuesday, .wednesday, .thursday] → 1 < year) := by
  unfold neededWeeks
  split
  · rename_i nothing
    exact iff_of_true ⟨_, rfl⟩ fun present => absurd (List.isEmpty_iff.mp nothing) present
  · rename_i something
    have given : s.weekNumbers ≠ [] := fun nothing => something (List.isEmpty_iff.mpr nothing)
    rw [YearWeeks.intervals_ok_iff]
    by_cases first : year = 1
    · subst first
      rw [YearWeeks.leftOver_year_one]
      constructor
      · rintro (outside | last | later) _ notLast inside
        · exact absurd inside outside
        · exact absurd last notLast
        · exact later
      · intro later
        by_cases last : -1 ∈ s.weekNumbers
        · exact .inr (.inl last)
        · exact .inl fun inside => Nat.lt_irrefl _ (later given last inside)
    · have later : 1 < year := by omega
      exact iff_of_true (.inr (.inr later)) fun _ _ _ => later

theorem neededOrdinals_ok_iff {s : Series} {year month : Nat} :
    (∃ days, s.neededOrdinals year month = .ok days) ↔
      ∀ stretch ∈ s.stretches year month, ∀ entry ∈ s.ordinals,
        ∃ found, ordinalDay year stretch.1 stretch.2 entry.1 entry.2 = .ok found := by
  rw [← ordinalDays_ok_iff, neededOrdinals]
  split
  · rename_i nothing
    have found : ∃ days, s.ordinalDays year month = .ok days := by
      rw [ordinalDays_ok_iff, List.isEmpty_iff.mp nothing]
      exact fun _ _ _ member => nomatch member
    exact iff_of_true ⟨_, rfl⟩ found
  · exact Iff.rfl

theorem yearTable_ok_iff {s : Series} {period : Nat} :
    (∃ table, s.yearTable period = .ok table) ↔
      (∃ weeks, s.neededWeeks (Date.ofNumber (s.firstDay period)).year = .ok weeks) ∧
      ∃ days, s.neededOrdinals (Date.ofNumber (s.firstDay period)).year
        (Date.ofNumber (s.firstDay period)).month = .ok days := by
  simp only [yearTable, Outcome.bind_eq_ok, Outcome.pure_eq_ok]
  constructor
  · rintro ⟨_, weeks, foundWeeks, days, foundDays, _⟩
    exact ⟨⟨weeks, foundWeeks⟩, days, foundDays⟩
  · rintro ⟨⟨weeks, foundWeeks⟩, days, foundDays⟩
    exact ⟨_, weeks, foundWeeks, days, foundDays, rfl⟩

theorem knownDays_bounds (year : Nat) : 379 ≤ knownDays year ∧ knownDays year ≤ 385 := by
  have := YearWeeks.newYear_lt year
  unfold knownDays
  omega

/-- Without week numbers and ordinals a period needs nothing of its year. -/
theorem yearTable_ok {s : Series} (sound : s.IsSound) (notYearly : s.frequency ≠ .yearly)
    (notMonthly : s.frequency ≠ .monthly) {period : Nat} (positive : 0 < s.firstDay period) :
    ∃ table, s.yearTable period = .ok table := by
  have year : 1 ≤ (Date.ofNumber (s.firstDay period)).year := (Date.yearOf_bounds _ positive).1
  rw [yearTable_ok_iff, neededWeeks_ok_iff year, neededOrdinals_ok_iff]
  refine ⟨fun numbered => absurd (sound.weekNumbers numbered).1 notYearly, ?_⟩
  intro _ _ entry member
  rcases (sound.ordinals entry member).2 with ⟨monthly, _⟩ | ⟨yearly, _⟩
  · exact absurd monthly notMonthly
  · exact absurd yearly notYearly

/-- The ordinals of a month are so small that their weekdays are always known. -/
theorem yearTable_ok_of_monthly {s : Series} (sound : s.IsSound) (monthly : s.frequency = .monthly)
    {period : Nat} (positive : 0 < s.firstDay period)
    (inside : s.firstDay period ≤ Date.lastNumber) : ∃ table, s.yearTable period = .ok table := by
  have valid := Date.isValid_iff.mp (Date.ofNumber_isValid positive inside)
  rw [yearTable_ok_iff, neededWeeks_ok_iff valid.1, neededOrdinals_ok_iff]
  generalize Date.ofNumber (s.firstDay period) = date at valid
  refine ⟨fun numbered => ?_, fun stretch among entry member => ?_⟩
  · have yearly := (sound.weekNumbers numbered).1
    rw [monthly] at yearly
    cases yearly
  · simp only [stretches, monthly, List.mem_singleton] at among
    subst among
    have known := knownDays_bounds date.year
    have before := @Date.daysBeforeMonth_le date.year _ valid.2.2.2.1
    rw [ordinalDay_ok_iff, monthStretch]
    rcases (sound.ordinals entry member).2 with ⟨_, low, high⟩ | ⟨yearly, _⟩
    · exact ⟨fun _ => by omega, fun _ => by omega⟩
    · rw [monthly] at yearly
      cases yearly

theorem year_of_firstDay {s : Series} (yearly : s.frequency = .yearly) {year : Nat}
    (positive : 1 ≤ year) : (Date.ofNumber (s.firstDay year)).year = year := by
  have length := Date.yearLength_bounds year
  have next := Date.daysBeforeYear_succ positive
  refine Date.yearOf_eq ?_ ?_
  · rw [firstDay, yearly]
    exact Nat.lt_succ_self _
  · rw [firstDay, yearly, next]
    exact Nat.add_le_add_left (by omega) _

/-- A year is found unless it is the first and its weeks ask for the year before,
or an ordinal counts in one of the months to a day of which no weekday is known. -/
theorem yearTable_ok_of_yearly {s : Series} (sound : s.IsSound) (yearly : s.frequency = .yearly)
    {year : Nat} (positive : 1 ≤ year) :
    (∃ table, s.yearTable year = .ok table) ↔
      (s.weekNumbers ≠ [] → -1 ∉ s.weekNumbers → s.weekStart ∈ [.tuesday, .wednesday, .thursday] →
        1 < year) ∧
      ∀ month ∈ s.months, ∀ entry ∈ s.ordinals,
        Date.daysBeforeMonth year month + (entry.1 - 1) * 7 < knownDays year := by
  rw [yearTable_ok_iff, year_of_firstDay yearly positive, neededWeeks_ok_iff positive,
    neededOrdinals_ok_iff]
  refine and_congr_right fun _ => ?_
  have known := knownDays_bounds year
  have length := Date.yearLength_bounds year
  have bounds (entry : Int × Weekday) (member : entry ∈ s.ordinals) :
      entry.1 ≠ 0 ∧ -53 ≤ entry.1 ∧ entry.1 ≤ 53 := by
    obtain ⟨nonzero, ⟨monthly, _⟩ | ⟨_, low, high⟩⟩ := sound.ordinals entry member
    · rw [yearly] at monthly
      cases monthly
    · exact ⟨nonzero, low, high⟩
  simp only [stretches, yearly]
  by_cases wholeYear : s.months.isEmpty
  · rw [if_pos wholeYear, List.isEmpty_iff.mp wholeYear]
    refine iff_of_true ?_ fun _ member => nomatch member
    intro stretch among entry member
    obtain ⟨nonzero, low, high⟩ := bounds entry member
    rw [List.mem_singleton.mp among, ordinalDay_ok_iff]
    exact ⟨fun _ => by omega, fun _ => by omega⟩
  · rw [if_neg wholeYear, List.forall_mem_map]
    refine forall₂_congr fun month among => forall₂_congr fun entry member => ?_
    obtain ⟨nonzero, low, high⟩ := bounds entry member
    rw [ordinalDay_ok_iff, monthStretch]
    dsimp only
    constructor
    · rintro ⟨_, upTo⟩
      by_cases negative : entry.1 < 0
      · have early := @Date.daysBeforeMonth_le year month (sound.months month among).2
        omega
      · exact upTo (Int.not_lt.mp negative)
    · intro upTo
      exact ⟨fun _ => by omega, fun _ => upTo⟩

end Series

end Recurrence
