import Mathlib.Tactic.Ring
import Recurrence.Text.Numeral

namespace Recurrence.Text

theorem digitChar_toNat (d : Nat) : (digitChar d).toNat = 48 + d % 10 := by
  have small : d % 10 < 10 := Nat.mod_lt _ (by decide)
  have valid : (48 + d % 10).isValidChar := Or.inl (by omega)
  rw [digitChar, Char.ofNat, dif_pos valid]
  rfl

theorem isDigit_digitChar (d : Nat) : isDigit (digitChar d) = true := by
  have small : d % 10 < 10 := Nat.mod_lt _ (by decide)
  simp only [isDigit, digitChar_toNat, Bool.and_eq_true, decide_eq_true_eq]
  omega

theorem digitValue_digitChar (d : Nat) : digitValue (digitChar d) = d % 10 := by
  simp only [digitValue, digitChar_toNat]
  omega

theorem natValue_concat (digits : Text) (c : Char) :
    natValue (digits ++ [c]) = 10 * natValue digits + digitValue c := by
  simp only [natValue, List.foldl_append, List.foldl_cons, List.foldl_nil]

theorem natValue_append (front back : Text) :
    natValue (front ++ back) = natValue front * 10 ^ back.length + natValue back := by
  induction back generalizing front with
  | nil => simp [natValue]
  | cons c back ih =>
    have single : natValue [c] = digitValue c := by simp [natValue]
    have rest := ih [c]
    rw [List.singleton_append, single] at rest
    rw [List.append_cons, ih, natValue_concat, rest, List.length_cons, Nat.pow_succ]
    ring

/-- Leading zeros do not change the number. -/
theorem natValue_zeros_append (zeros : Nat) (digits : Text) :
    natValue (List.replicate zeros '0' ++ digits) = natValue digits := by
  induction zeros with
  | zero => rfl
  | succ zeros ih =>
    have zero : digitValue '0' = 0 := rfl
    simpa only [natValue, List.replicate_succ, List.cons_append, List.foldl_cons, zero] using ih

theorem all_isDigit_ofNat (n : Nat) : (ofNat n).all isDigit = true := by
  induction n using ofNat.induct with
  | case1 n small =>
    rw [ofNat, if_pos small]
    simp only [List.all_cons, List.all_nil, isDigit_digitChar, Bool.and_self]
  | case2 n large ih =>
    rw [ofNat, if_neg large]
    simp only [List.all_append, ih, List.all_cons, List.all_nil, isDigit_digitChar, Bool.and_self]

theorem natValue_ofNat (n : Nat) : natValue (ofNat n) = n := by
  induction n using ofNat.induct with
  | case1 n small =>
    rw [ofNat, if_pos small]
    have single := natValue_concat [] (digitChar n)
    simp only [List.nil_append] at single
    rw [single, digitValue_digitChar]
    simp only [natValue, List.foldl_nil]
    omega
  | case2 n large ih =>
    rw [ofNat, if_neg large, natValue_concat, ih, digitValue_digitChar]
    omega

theorem ofNat_ne_nil (n : Nat) : ofNat n ≠ [] := by
  rw [ofNat]
  split <;> simp

/-- A number has no more digits than any power of ten above it has zeros. -/
theorem length_ofNat_le {n digits : Nat} (positive : 0 < digits) (bound : n < 10 ^ digits) :
    (ofNat n).length ≤ digits := by
  induction n using ofNat.induct generalizing digits with
  | case1 n small =>
    rw [ofNat, if_pos small]
    exact positive
  | case2 n large ih =>
    rw [ofNat, if_neg large, List.length_append, List.length_singleton]
    obtain ⟨fewer, rfl⟩ : ∃ fewer, digits = fewer + 1 := ⟨digits - 1, by omega⟩
    have step : 10 ^ (fewer + 1) = 10 * 10 ^ fewer := by ring
    have some : fewer ≠ 0 := by
      rintro rfl
      omega
    have tail := ih (by omega : 0 < fewer) (by omega)
    omega

theorem nat?_ofNat {n most : Nat} (positive : 0 < most) (bound : n < 10 ^ most) :
    nat? most (ofNat n) = some n := by
  have short := length_ofNat_le positive bound
  have nonempty : (ofNat n).isEmpty = false := by
    simpa only [List.isEmpty_eq_false_iff] using ofNat_ne_nil n
  simp only [nat?, nonempty, all_isDigit_ofNat, short, natValue_ofNat, Bool.not_false,
    Bool.and_self, decide_true, if_true]

/-- A run of digits writes a number below the power of ten with as many zeros. -/
theorem natValue_lt {digits : Text} (allDigits : digits.all isDigit = true) :
    natValue digits < 10 ^ digits.length := by
  have foldBound (value : Nat) : digits.foldl (fun value c => 10 * value + digitValue c) value <
      (value + 1) * 10 ^ digits.length := by
    induction digits generalizing value with
    | nil => simp
    | cons c rest ih =>
      simp only [List.all_cons, Bool.and_eq_true, isDigit, decide_eq_true_eq] at allDigits
      have small : digitValue c ≤ 9 := by
        simp only [digitValue]
        omega
      have tail := ih (by simpa only [List.all_eq_true, isDigit, Bool.and_eq_true,
        decide_eq_true_eq] using allDigits.2) (10 * value + digitValue c)
      refine Nat.lt_of_lt_of_le tail ?_
      rw [List.length_cons, Nat.pow_succ, Nat.mul_comm (10 ^ rest.length), ← Nat.mul_assoc]
      exact Nat.mul_le_mul_right _ (by omega)
  simpa only [natValue, Nat.zero_add, Nat.one_mul] using foldBound 0

theorem lt_of_nat? {most n : Nat} {t : Text} (read : nat? most t = some n) : n < 10 ^ most := by
  unfold nat? at read
  split at read
  · rename_i digits
    simp only [Bool.and_eq_true, decide_eq_true_eq] at digits
    cases read
    exact Nat.lt_of_lt_of_le (natValue_lt digits.1.2) (Nat.pow_le_pow_right (by decide) digits.2)
  · cases read

theorem natAbs_lt_of_int? {most : Nat} {n : Int} {t : Text} (read : int? most t = some n) :
    n.natAbs < 10 ^ most := by
  have bound {m : Nat} {digits : Text} (digitsRead : nat? most digits = some m) : m < 10 ^ most :=
    lt_of_nat? digitsRead
  unfold int? at read
  split at read <;>
  · simp only [Option.map_eq_some_iff, Option.bind_eq_bind, Option.bind_eq_some_iff, Option.pure_def,
      Option.some.injEq] at read
    obtain ⟨_, ⟨m, digitsRead, rfl⟩, rfl⟩ := read
    have small := bound digitsRead
    omega

/-- The first character of a number is a digit and so no sign. -/
theorem ofNat_eq_cons (n : Nat) : ∃ c rest, ofNat n = c :: rest ∧ isDigit c = true := by
  have digits := all_isDigit_ofNat n
  cases text : ofNat n with
  | nil => exact absurd text (ofNat_ne_nil n)
  | cons c rest =>
    rw [text, List.all_cons, Bool.and_eq_true] at digits
    exact ⟨c, rest, rfl, digits.1⟩

theorem int?_ofNat {n most : Nat} (positive : 0 < most) (bound : n < 10 ^ most) :
    int? most (ofNat n) = some (n : Int) := by
  have read := nat?_ofNat positive bound
  obtain ⟨c, rest, text, digit⟩ := ofNat_eq_cons n
  rw [text] at read ⊢
  unfold int?
  split
  · rename_i same
    cases same
    cases digit
  · rename_i same
    cases same
    cases digit
  · rw [read]
    rfl

theorem int?_ofInt {n : Int} {most : Nat} (positive : 0 < most) (bound : n.natAbs < 10 ^ most) :
    int? most (ofInt n) = some n := by
  cases n with
  | ofNat n => exact int?_ofNat positive bound
  | negSucc n =>
    have read : nat? most (ofNat (n + 1)) = some (n + 1) := nat?_ofNat positive bound
    rw [ofInt, int?, read]
    rfl

theorem length_padded {width n : Nat} (positive : 0 < width) (bound : n < 10 ^ width) :
    (padded width n).length = width := by
  have short := length_ofNat_le positive bound
  simp only [padded, List.length_append, List.length_replicate]
  omega

theorem all_isDigit_padded (width n : Nat) : (padded width n).all isDigit = true := by
  have zero : isDigit '0' = true := rfl
  simp only [padded, List.all_append, all_isDigit_ofNat, Bool.and_true]
  simp only [List.all_replicate, zero, ite_self]

theorem natValue_padded (width n : Nat) : natValue (padded width n) = n := by
  rw [padded, natValue_zeros_append, natValue_ofNat]

theorem takeNat?_padded {width n : Nat} (positive : 0 < width) (bound : n < 10 ^ width)
    (rest : Text) : takeNat? width (padded width n ++ rest) = some (n, rest) := by
  have length := length_padded positive bound
  have front : (padded width n ++ rest).take width = padded width n := List.take_left' length
  have back : (padded width n ++ rest).drop width = rest := List.drop_left' length
  simp only [takeNat?, front, back, length, all_isDigit_padded, natValue_padded, and_self, if_true]

/-- A padded number begins with a digit. -/
theorem padded_eq_cons {width n : Nat} (positive : 0 < width) (bound : n < 10 ^ width) :
    ∃ c rest, padded width n = c :: rest ∧ isDigit c = true := by
  have length := length_padded positive bound
  have digits := all_isDigit_padded width n
  cases text : padded width n with
  | nil =>
    rw [text, List.length_nil] at length
    omega
  | cons c rest =>
    rw [text, List.all_cons, Bool.and_eq_true] at digits
    exact ⟨c, rest, rfl, digits.1⟩

/-- Digits that write a number of millionths are read as that number: those after the sixth
are zeros. -/
theorem millionths_of_natValue {digits : Text} {micros : Nat} (allDigits : digits.all isDigit = true)
    (value : natValue digits * 10 ^ 6 = micros * 10 ^ digits.length) :
    millionths digits = micros := by
  by_cases short : digits.length ≤ 6
  · have whole : 10 ^ 6 = 10 ^ (6 - digits.length) * 10 ^ digits.length := by
      rw [← Nat.pow_add, Nat.sub_add_cancel short]
    rw [whole, ← Nat.mul_assoc] at value
    have cancelled := Nat.eq_of_mul_eq_mul_right (Nat.pow_pos (by decide)) value
    simp only [millionths, tenTo, Nat.pow_eq, List.take_of_length_le short, cancelled]
  · have front : (digits.take 6).length = 6 := by
      rw [List.length_take]
      omega
    have length : digits.length = (digits.drop 6).length + 6 := by
      rw [List.length_drop]
      omega
    have split : natValue digits =
        natValue (digits.take 6) * 10 ^ (digits.drop 6).length + natValue (digits.drop 6) := by
      rw [← natValue_append, List.take_append_drop]
    have tail : natValue (digits.drop 6) < 10 ^ (digits.drop 6).length := by
      refine natValue_lt (List.all_eq_true.mpr fun c member => ?_)
      exact List.all_eq_true.mp allDigits c (List.mem_of_mem_drop member)
    rw [length, Nat.pow_add, ← Nat.mul_assoc] at value
    have cancelled := Nat.eq_of_mul_eq_mul_right (by decide) value
    have quotient : natValue digits / 10 ^ (digits.drop 6).length = natValue (digits.take 6) := by
      rw [split, Nat.mul_comm, Nat.mul_add_div (Nat.pow_pos (by decide)), Nat.div_eq_of_lt tail,
        Nat.add_zero]
    have same : natValue digits / 10 ^ (digits.drop 6).length = micros := by
      rw [cancelled, Nat.mul_div_cancel _ (Nat.pow_pos (by decide))]
    simp only [millionths, front, tenTo, Nat.pow_eq, ← quotient, same, Nat.sub_self, Nat.pow_zero,
      Nat.mul_one]

theorem ofInt_ne_nil (n : Int) : ofInt n ≠ [] := by
  cases n with
  | ofNat n => exact ofNat_ne_nil n
  | negSucc n => exact List.cons_ne_nil _ _

theorem ofNat_injective : Function.Injective ofNat := Function.LeftInverse.injective natValue_ofNat

/-- The texts of integers differ, since a minus stands before the negative ones alone. -/
theorem ofInt_injective : Function.Injective ofInt := by
  have apart (n m : Nat) : ofNat n ≠ '-' :: ofNat m := by
    obtain ⟨c, rest, text, digit⟩ := ofNat_eq_cons n
    intro same
    rw [text, List.cons.injEq] at same
    rw [same.1] at digit
    cases digit
  intro n m same
  cases n with
  | ofNat n =>
    cases m with
    | ofNat m => rw [ofNat_injective same]
    | negSucc m => exact absurd same (apart n (m + 1))
  | negSucc n =>
    cases m with
    | ofNat m => exact absurd same.symm (apart m (n + 1))
    | negSucc m => rw [Nat.succ.inj (ofNat_injective (List.cons.inj same).2)]

end Recurrence.Text
