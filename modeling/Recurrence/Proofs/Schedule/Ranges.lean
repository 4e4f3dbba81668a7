import Mathlib.Algebra.Order.Ring.Int
import Recurrence.Proofs.Outcome
import Recurrence.Schedule.Check

namespace Recurrence

/-- A fractional number that equals an integer lies to every integer as that one does. -/
theorem Decimal.compareInt?_of_eq {x : Decimal} {n : Int} (same : x.compareInt? n = some .eq)
    (m : Int) : x.compareInt? m = some (compare n m) := by
  cases x with
  | notANumber => cases same
  | infinite negative => cases negative <;> cases same
  | finite negative digits exponent =>
    unfold compareInt? at same ⊢
    dsimp only at same ⊢
    split
    · rename_i whole
      rw [if_pos whole, Option.some.injEq, compare_eq_iff_eq] at same
      rw [same]
    · rename_i fractional
      rw [if_neg fractional, Option.some.injEq, compare_eq_iff_eq] at same
      have positive : (0 : Int) < Text.tenTo (-exponent).toNat :=
        Int.natCast_pos.mpr (Nat.pow_pos (by decide))
      rw [same, ← cmp_eq_compare, cmp_mul_pos_right positive, cmp_eq_compare]

namespace Datum

/-- Whether a value is a number, of any kind, that equals an integer. -/
def Equals (d : Datum) (n : Int) : Prop := d.compareInt? n = some (some .eq)

/-- Whether a value is a number without a fraction: an integer, a truth value, or a float that
equals an integer. -/
def IsWhole (d : Datum) : Prop := ∃ n, d.Equals n

theorem equals_int {n m : Int} : (int n).Equals m ↔ n = m := by
  have compared : (int n).compareInt? m = some (some (compare n m)) := rfl
  simp [Equals, compared]

theorem isWhole_of_int {d : Datum} (integer : ∃ n, d = int n) : d.IsWhole := by
  obtain ⟨n, rfl⟩ := integer
  exact ⟨n, equals_int.mpr rfl⟩

namespace Equals

variable {d : Datum} {n : Int}

/-- A number that equals an integer lies to every integer as that one does. -/
theorem compareInt? (same : d.Equals n) (m : Int) : d.compareInt? m = some (some (compare n m)) := by
  unfold Equals Datum.compareInt? at *
  cases number : d.asNumber? with
  | none =>
    rw [number] at same
    cases same
  | some value =>
    rw [number] at same
    cases value with
    | inl k =>
      simp only [Option.some.injEq, compare_eq_iff_eq] at same
      rw [same]
    | inr x => exact congrArg some (Decimal.compareInt?_of_eq (Option.some.inj same) m)

theorem unique {m : Int} (same : d.Equals n) (sameToo : d.Equals m) : n = m := by
  have compared := (same.compareInt? m).symm.trans sameToo
  simpa using compared

end Equals

end Datum

/-- Whether a diagnostic is about values that make sense one by one, and that do
not fit together, the frequency or the start. -/
def Diagnostic.isJoint : Diagnostic → Bool
  | weekNumberFrequency .. | yearDayFrequency .. | monthDayFrequency _ | ordinalFrequency _
  | ordinalOutOfRange .. | lonePositions _ | countWithEnd _ | endBeforeStart .. | unreachable .. =>
    true
  | _ => false

namespace Schedule

/-- Whether the numbers of the schedule are integers of the ranges of their parts. -/
def IsRanged (s : Schedule) : Prop :=
  ∀ part low high zeroAllowed, part.range? = some (low, high, zeroAllowed) →
    ∀ d ∈ s.values part, ∃ n : Int, d = .int n ∧ low ≤ n ∧ n ≤ high ∧ (n ≠ 0 ∨ zeroAllowed = true)

/-- Whether the values of a part pass the check of its range. -/
def PassesRange (s : Schedule) (part : ListPart) : Prop :=
  ∀ low high zeroAllowed, part.range? = some (low, high, zeroAllowed) →
    checkRange part low high zeroAllowed (s.values part) = .ok ()

theorem isWithin_of_equals {d : Datum} {n : Int} (same : d.Equals n) (low high : Int) :
    isWithin d low high = .ok (decide (low ≤ n ∧ n ≤ high)) := by
  simp only [isWithin, same.compareInt?, Except.ok.injEq]
  rw [Bool.eq_iff_iff]
  simp [Int.compare_eq_lt, Int.compare_eq_gt]

theorem isZero_of_equals {d : Datum} {n : Int} (same : d.Equals n) :
    isZero d = decide (n = 0) := by
  rw [Bool.eq_iff_iff]
  simp [isZero, same.compareInt?]

/-- Whole numbers pass the check of a range when they are of it. -/
theorem checkRange_ok_iff_of_isWhole {part : ListPart} {low high : Int} {zeroAllowed : Bool}
    {values : List Datum} (whole : ∀ d ∈ values, d.IsWhole) :
    checkRange part low high zeroAllowed values = .ok () ↔
      ∀ d ∈ values, ∃ n : Int, d.Equals n ∧ low ≤ n ∧ n ≤ high ∧ (n ≠ 0 ∨ zeroAllowed = true) := by
  induction values with
  | nil => exact ⟨fun _ _ member => (nomatch member), fun _ => rfl⟩
  | cons d values ih =>
    obtain ⟨⟨n, same⟩, later⟩ := List.forall_mem_cons.mp whole
    rw [List.forall_mem_cons, ← ih later]
    have step : checkRange part low high zeroAllowed (d :: values) =
        (isWithin d low high >>= fun inside =>
          if (!inside || (isZero d && !zeroAllowed)) = true then
            .error (.diagnostic (.outOfRange part d low high))
          else checkRange part low high zeroAllowed values) := rfl
    rw [step, isWithin_of_equals same]
    dsimp only [bind, Except.bind]
    have refused : (!decide (low ≤ n ∧ n ≤ high) || (isZero d && !zeroAllowed)) = true ↔
        ¬(low ≤ n ∧ n ≤ high ∧ (n ≠ 0 ∨ zeroAllowed = true)) := by
      rw [isZero_of_equals same]
      cases zeroAllowed <;> simp <;> omega
    split
    · rename_i outside
      refine iff_of_false (fun made => nomatch made) ?_
      rintro ⟨⟨m, sameToo, inside⟩, _⟩
      rw [same.unique sameToo] at outside refused
      exact refused.mp outside inside
    · rename_i inside
      have here := not_not.mp (mt refused.mpr inside)
      exact ⟨fun rest => ⟨⟨n, same, here⟩, rest⟩, And.right⟩

/-- Integers pass the check of a range when they are of it. -/
theorem checkRange_ok_iff {part : ListPart} {low high : Int} {zeroAllowed : Bool}
    {values : List Datum} (integers : ∀ d ∈ values, ∃ n, d = .int n) :
    checkRange part low high zeroAllowed values = .ok () ↔
      ∀ d ∈ values, ∃ n : Int, d = .int n ∧ low ≤ n ∧ n ≤ high ∧ (n ≠ 0 ∨ zeroAllowed = true) := by
  rw [checkRange_ok_iff_of_isWhole fun d member => Datum.isWhole_of_int (integers d member)]
  refine forall₂_congr fun d member => exists_congr fun n => and_congr_left fun _ => ?_
  obtain ⟨m, rfl⟩ := integers d member
  rw [Datum.equals_int, Datum.int.injEq]

/-- The check of the ranges looks at one part after the other. -/
theorem checkRanges_ok_iff_passesRange {s : Schedule} :
    s.checkRanges = .ok () ↔ ∀ part, s.PassesRange part := by
  unfold checkRanges
  rw [Outcome.forM_eq_ok]
  constructor
  · intro checked part low high zeroAllowed range
    have one := checked part (by cases part <;> decide)
    simpa only [range] using one
  · intro passes part _
    cases range : part.range? with
    | none => rfl
    | some bounds => exact passes part _ _ _ range

/-- A schedule of integers passes the check of its ranges when they are of them. -/
theorem checkRanges_ok_iff {s : Schedule}
    (integers : ∀ part, part ≠ .weekday → ∀ d ∈ s.values part, ∃ n, d = .int n) :
    s.checkRanges = .ok () ↔ s.IsRanged := by
  rw [checkRanges_ok_iff_passesRange]
  refine forall_congr' fun part => forall₄_congr fun low high zeroAllowed range => ?_
  have numeric : part ≠ .weekday := by
    rintro rfl
    cases range
  exact checkRange_ok_iff (integers part numeric)

theorem isJoint_of_checkChoice {s : Schedule} {choice : DayChoice} {diagnostic : Diagnostic}
    (failed : s.checkChoice choice = .error (.diagnostic diagnostic)) :
    diagnostic.isJoint = true := by
  unfold checkChoice at failed
  split at failed
  · cases failed
  · split at failed
    · cases failed
      rfl
    · split at failed
      · cases failed
        rfl
      · split at failed
        · split at failed
          · cases failed
            rfl
          · cases failed
        · cases failed

theorem isJoint_of_checkFrequencyParts {s : Schedule} {diagnostic : Diagnostic}
    (failed : s.checkFrequencyParts = .error (.diagnostic diagnostic)) :
    diagnostic.isJoint = true := by
  unfold checkFrequencyParts at failed
  dsimp only at failed
  split at failed
  · cases failed
    rfl
  · split at failed
    · cases failed
      rfl
    · split at failed
      · cases failed
        rfl
      · obtain ⟨choice, _, failed⟩ := Outcome.exists_of_forM_eq_error failed
        exact isJoint_of_checkChoice failed

/-- The search for a day that a month has ends in no diagnostic. -/
theorem anyMonthFits_ne_diagnostic {days months : List Datum} {diagnostic : Diagnostic} :
    anyMonthFits days months ≠ .error (.diagnostic diagnostic) := by
  have within (d : Datum) (low high : Int) : isWithin d low high ≠ .error (.diagnostic diagnostic) := by
    unfold isWithin
    split <;> exact fun failed => nomatch failed
  have fits (day month : Datum) : fitsMonth day month ≠ .error (.diagnostic diagnostic) := by
    unfold fitsMonth
    split
    · exact fun failed => nomatch failed
    · exact within _ _ _
    · exact fun failed => nomatch failed
  have some (month : Datum) (days : List Datum) :
      anyFits month days ≠ .error (.diagnostic diagnostic) := by
    induction days with
    | nil => exact fun failed => nomatch failed
    | cons day days ih =>
      intro failed
      unfold anyFits at failed
      obtain failed | ⟨found, _, failed⟩ := Outcome.bind_eq_error.mp failed
      · exact fits _ _ failed
      · cases found with
        | true => cases failed
        | false => exact ih failed
  induction months with
  | nil => exact fun failed => nomatch failed
  | cons month months ih =>
    intro failed
    unfold anyMonthFits at failed
    obtain failed | ⟨found, _, failed⟩ := Outcome.bind_eq_error.mp failed
    · exact some _ _ failed
    · cases found with
      | true => cases failed
      | false => exact ih failed

theorem isJoint_of_checkReachable {s : Schedule} {diagnostic : Diagnostic}
    (failed : s.checkReachable = .error (.diagnostic diagnostic)) : diagnostic.isJoint = true := by
  unfold checkReachable at failed
  split at failed
  · cases failed
  · obtain failed | ⟨found, _, failed⟩ := Outcome.bind_eq_error.mp failed
    · exact absurd failed anyMonthFits_ne_diagnostic
    · cases found with
      | true => cases failed
      | false =>
        cases failed
        rfl

/-- Once the ranges hold, a schedule is refused only for values that do not fit
together. -/
theorem isJoint_of_check {s : Schedule} {start : Timestamp} {diagnostic : Diagnostic}
    (ranges : s.checkRanges = .ok ()) (failed : s.check start = .error (.diagnostic diagnostic)) :
    diagnostic.isJoint = true := by
  unfold check at failed
  rw [ranges] at failed
  obtain failed | ⟨_, _, failed⟩ := Outcome.bind_eq_error.mp failed
  · cases failed
  · obtain failed | ⟨_, _, failed⟩ := Outcome.bind_eq_error.mp failed
    · exact isJoint_of_checkFrequencyParts failed
    · dsimp only at failed
      split at failed
      · cases failed
        rfl
      · split at failed
        · exact isJoint_of_checkReachable failed
        · split at failed
          · cases failed
            rfl
          · split at failed
            · cases failed
              rfl
            · exact isJoint_of_checkReachable failed

end Schedule

end Recurrence
