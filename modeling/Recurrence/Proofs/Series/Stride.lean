import Mathlib.Tactic.ByContra
import Mathlib.Tactic.Ring
import Recurrence.Series.Stride

namespace Recurrence.Series

/-- Whether a period is admitted depends on its place in the day alone. -/
theorem admitsPeriod_congr {s : Series} {first second : Nat}
    (same : first % unitsPerDay s.frequency = second % unitsPerDay s.frequency) :
    s.admitsPeriod first = s.admitsPeriod second := by
  unfold admitsPeriod clock
  rw [same]

/-- An admitted period lies in a wanted unit of its own length. -/
theorem own_of_admitsPeriod {s : Series} {period : Nat} (within : s.frequency.isWithinDay = true)
    (admitted : s.admitsPeriod period = true) {wanted : List Int} {round : Nat}
    (own : s.ownUnit = (some wanted, round)) :
    wanted.contains ((period % round : Nat) : Int) = true := by
  simp only [admitsPeriod, clock, Bool.and_eq_true] at admitted
  obtain ⟨⟨hour, minute⟩, second⟩ := admitted
  unfold ownUnit at own
  cases kind : s.frequency with
  | hourly =>
    simp only [kind, Prod.mk.injEq] at own
    obtain ⟨hours, rfl⟩ := own
    simp only [kind, unitsPerDay, Frequency.isWithinDay, hours, admits, Bool.not_true,
      Bool.false_or] at hour
    have same : period % 24 * (86400 / 24) / 3600 = period % 24 := by omega
    rwa [same] at hour
  | minutely =>
    simp only [kind, Prod.mk.injEq] at own
    obtain ⟨minutes, rfl⟩ := own
    simp only [kind, unitsPerDay, Frequency.isWithinHour, minutes, admits, Bool.not_true,
      Bool.false_or] at minute
    have same : period % 1440 * (86400 / 1440) / 60 % 60 = period % 60 := by omega
    rwa [same] at minute
  | secondly =>
    simp only [kind, Prod.mk.injEq] at own
    obtain ⟨seconds, rfl⟩ := own
    simp only [kind, unitsPerDay, Frequency.isWithinMinute, seconds, admits, Bool.not_true,
      Bool.false_or] at second
    have same : period % 86400 * (86400 / 86400) % 60 = period % 60 := by omega
    rwa [same] at second
  | _ =>
    rw [kind] at within
    cases within

theorem round_pos (s : Series) : 0 < s.ownUnit.2 := by
  unfold ownUnit
  split <;> exact Nat.zero_lt_succ _

theorem step_mod_round (period interval round : Nat) {steps : Nat} (positive : 1 ≤ steps) :
    (period + ((steps - 1) % round + 1) * interval) % round = (period + steps * interval) % round := by
  have rounds := Nat.mod_add_div (steps - 1) round
  have same : period + steps * interval =
      period + ((steps - 1) % round + 1) * interval + round * ((steps - 1) / round * interval) := by
    have whole : steps = (steps - 1) % round + round * ((steps - 1) / round) + 1 := by omega
    calc period + steps * interval
        = period + ((steps - 1) % round + round * ((steps - 1) / round) + 1) * interval := by
          rw [← whole]
      _ = _ := by
          rw [Nat.add_right_comm, Nat.add_mul, Nat.mul_assoc, Nat.add_assoc]
  rw [same, Nat.add_mul_mod_self_left]

/-- A hop goes no further than to an admitted period. -/
theorem hop?_le {s : Series} {period steps : Nat} (within : s.frequency.isWithinDay = true)
    (positive : 1 ≤ steps) (admitted : s.admitsPeriod (period + steps * s.interval) = true) :
    ∃ n, s.hop? period = some n ∧ n.1 ≤ steps := by
  unfold hop?
  split
  · exact ⟨_, rfl, positive⟩
  · rename_i wanted round own
    have roundPos : 0 < round := by
      have := s.round_pos
      rwa [own] at this
    have first : (List.range' 1 round).find? (fun n =>
        wanted.contains (((period + n * s.interval) % round : Nat) : Int)) ≠ none := by
      intro missing
      rw [List.find?_eq_none] at missing
      refine missing ((steps - 1) % round + 1) ?_ ?_
      · rw [List.mem_range'_1]
        have := Nat.mod_lt (steps - 1) roundPos
        omega
      · rw [step_mod_round _ _ _ positive]
        exact own_of_admitsPeriod within admitted own
    split
    · rename_i missing
      exact absurd missing first
    · rename_i n found
      refine ⟨_, rfl, ?_⟩
      dsimp only
      rw [List.find?_range'_eq_some] at found
      obtain ⟨_, _, least⟩ := found
      have le := Nat.mod_le (steps - 1) round
      by_contra late
      have unwanted := least ((steps - 1) % round + 1) (by omega) (by omega)
      rw [step_mod_round _ _ _ positive, own_of_admitsPeriod within admitted own] at unwanted
      cases unwanted

/-- The search for the next period finds one when an admitted period is within
its number of hops. -/
theorem seek_ok {s : Series} (within : s.frequency.isWithinDay = true) {hops period steps : Nat}
    (positive : 1 ≤ steps) (near : steps ≤ hops)
    (admitted : s.admitsPeriod (period + steps * s.interval) = true) :
    ∃ next, s.seek hops period = .ok next := by
  induction hops generalizing period steps with
  | zero => omega
  | succ hops ih =>
    obtain ⟨⟨n, forward⟩, hop, le⟩ := hop?_le within positive admitted
    rw [seek, hop]
    dsimp only at le ⊢
    split
    · exact ⟨_, rfl⟩
    · rename_i refused
      have short : n ≠ steps := by
        rintro rfl
        exact refused admitted
      have rest : period + n * s.interval + (steps - n) * s.interval =
          period + steps * s.interval := by
        rw [Nat.add_assoc, ← Nat.add_mul, Nat.add_sub_cancel' le]
      rw [← rest] at admitted
      obtain ⟨next, found⟩ := ih (by omega : 1 ≤ steps - n) (by omega) admitted
      rw [found]
      exact ⟨_, rfl⟩

/-- What the search finds is an admitted period, some whole intervals on. -/
theorem admits_of_seek {s : Series} {hops period : Nat} {next : { next : Nat // period < next }}
    (found : s.seek hops period = .ok next) :
    ∃ steps, 1 ≤ steps ∧ next.1 = period + steps * s.interval ∧ s.admitsPeriod next.1 = true := by
  induction hops generalizing period with
  | zero => cases found
  | succ hops ih =>
    rw [seek] at found
    split at found
    · cases found
    · rename_i n forward _
      dsimp only at found
      split at found
      · rename_i admitted
        cases found
        exact ⟨n, forward, rfl, admitted⟩
      · split at found
        · rename_i later _ rest
          cases found
          obtain ⟨steps, _, same, admitted⟩ := ih rest
          refine ⟨n + steps, by omega, ?_, admitted⟩
          rw [same, Nat.add_mul, Nat.add_assoc]
        · cases found

/-- After so many intervals the clock is at the same place in the day again. -/
def cycle (s : Series) : Nat :=
  unitsPerDay s.frequency / Nat.gcd s.interval (unitsPerDay s.frequency)

theorem unitsPerDay_pos (f : Frequency) : 0 < unitsPerDay f := by
  cases f <;> decide

theorem cycle_pos (s : Series) : 0 < s.cycle :=
  Nat.div_pos (Nat.le_of_dvd (unitsPerDay_pos _) (Nat.gcd_dvd_right ..))
    (Nat.gcd_pos_of_pos_left _ s.interval_pos)

theorem admitsPeriod_cycle (s : Series) (period steps rounds : Nat) :
    s.admitsPeriod (period + (steps + s.cycle * rounds) * s.interval) =
      s.admitsPeriod (period + steps * s.interval) := by
  have whole : unitsPerDay s.frequency ∣ s.cycle * s.interval := by
    rw [cycle, Nat.div_mul_right_comm (Nat.gcd_dvd_right ..), Nat.mul_comm]
    exact Nat.dvd_lcm_right ..
  obtain ⟨days, whole⟩ := whole
  refine admitsPeriod_congr ?_
  have same : period + (steps + s.cycle * rounds) * s.interval =
      period + steps * s.interval + unitsPerDay s.frequency * (days * rounds) := by
    calc period + (steps + s.cycle * rounds) * s.interval
        = period + steps * s.interval + s.cycle * s.interval * rounds := by ring
      _ = _ := by rw [whole, Nat.mul_assoc]
  rw [same, Nat.add_mul_mod_self_left]

theorem admitsPeriod_mod_cycle (s : Series) (period steps : Nat) :
    s.admitsPeriod (period + steps % s.cycle * s.interval) =
      s.admitsPeriod (period + steps * s.interval) := by
  have parts := Nat.mod_add_div steps s.cycle
  conv_rhs => rw [← parts]
  exact (s.admitsPeriod_cycle period (steps % s.cycle) (steps / s.cycle)).symm

/-- From every period that whole intervals reach, an admitted one is at most one
cycle away, if there is any. -/
theorem exists_near {s : Series} {first there : Nat} (here : Nat)
    (admitted : s.admitsPeriod (first + there * s.interval) = true) :
    ∃ steps, 1 ≤ steps ∧ steps ≤ s.cycle ∧
      s.admitsPeriod (first + here * s.interval + steps * s.interval) = true := by
  have positive := s.cycle_pos
  have short := Nat.mod_lt (there + (here + 1) * (s.cycle - 1)) positive
  refine ⟨(there + (here + 1) * (s.cycle - 1)) % s.cycle + 1, by omega, by omega, ?_⟩
  have total : there + (here + 1) * (s.cycle - 1) + (here + 1) = there + s.cycle * (here + 1) := by
    obtain ⟨more, same⟩ : ∃ more, s.cycle = more + 1 := ⟨s.cycle - 1, by omega⟩
    rw [same, Nat.add_sub_cancel]
    ring
  have place : (here + ((there + (here + 1) * (s.cycle - 1)) % s.cycle + 1)) % s.cycle =
      there % s.cycle := by
    calc (here + ((there + (here + 1) * (s.cycle - 1)) % s.cycle + 1)) % s.cycle
        = ((here + 1) + (there + (here + 1) * (s.cycle - 1)) % s.cycle) % s.cycle := by
          rw [Nat.add_right_comm, Nat.add_assoc here]
      _ = (there + s.cycle * (here + 1)) % s.cycle := by
          rw [Nat.add_mod_mod, Nat.add_comm, total]
      _ = there % s.cycle := Nat.add_mul_mod_self_left ..
  rw [Nat.add_assoc, ← Nat.add_mul, ← admitsPeriod_mod_cycle, place, admitsPeriod_mod_cycle]
  exact admitted

theorem passed_reached (s : Series) (passedOver : Bool) (period : Nat) :
    ∃ steps, (if passedOver then s.lastOfDay period else period) = period + steps * s.interval := by
  cases passedOver with
  | true => exact ⟨_, rfl⟩
  | false => exact ⟨0, by simp⟩

/-- The way to the next period within the day ends when the clock ever shows what
is wanted. -/
theorem nextPeriod_ok {s : Series} (within : s.frequency.isWithinDay = true) {first there : Nat}
    (here : Nat) (passedOver : Bool)
    (admitted : s.admitsPeriod (first + there * s.interval) = true) :
    ∃ next, s.nextPeriod passedOver (first + here * s.interval) = .ok next := by
  obtain ⟨more, passed⟩ := s.passed_reached passedOver (first + here * s.interval)
  obtain ⟨steps, positive, near, ahead⟩ := exists_near (here + more) admitted
  rw [Nat.add_mul, ← Nat.add_assoc, ← passed] at ahead
  obtain ⟨found, seen⟩ := seek_ok within positive near ahead
  unfold nextPeriod
  split
  case h_5 =>
    dsimp only
    split
    · exact ⟨_, rfl⟩
    · rename_i lost
      cases seen.symm.trans lost
  all_goals exact ⟨_, rfl⟩

/-- The next period within the day is an admitted one. -/
theorem admits_of_nextPeriod {s : Series} (within : s.frequency.isWithinDay = true)
    {passedOver : Bool} {period : Nat} {next : { next : Nat // period < next }}
    (found : s.nextPeriod passedOver period = .ok next) :
    ∃ steps, next.1 = period + steps * s.interval ∧ s.admitsPeriod next.1 = true := by
  obtain ⟨more, passed⟩ := s.passed_reached passedOver period
  have sought : ∃ later, s.seek s.cycle (if passedOver then s.lastOfDay period else period) =
      .ok later ∧ later.1 = next.1 := by
    unfold nextPeriod at found
    split at found
    case h_5 =>
      dsimp only at found
      split at found
      · rename_i later after seen
        cases found
        exact ⟨⟨later, after⟩, seen, rfl⟩
      · cases found
    all_goals
      rename_i long
      rw [long] at within
      cases within
  obtain ⟨later, seen, same⟩ := sought
  obtain ⟨steps, _, reached, admitted⟩ := admits_of_seek seen
  rw [same] at reached admitted
  rw [passed] at reached
  exact ⟨more + steps, by rw [reached, Nat.add_mul, Nat.add_assoc], admitted⟩

end Recurrence.Series
