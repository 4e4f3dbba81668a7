import Recurrence.Proofs.Calendar.UtcClock
import Recurrence.Proofs.Rule.Segments
import Recurrence.Proofs.Text.Layout

namespace Recurrence

open Text (trim)

namespace Text

/-- One ASCII digit or more, but not more than `most`. -/
structure IsNumeral (most : Nat) (t : Text) : Prop where
  nonempty : t ≠ []
  digits : ∀ c ∈ t, c.isDigit = true
  short : t.length ≤ most

/-- A numeral after at most one sign, and the integer that they write. -/
inductive IsSigned (most : Nat) : Text → Int → Prop
  | plain {digits : Text} : IsNumeral most digits →
      IsSigned most digits (Nat.ofDigitChars 10 digits 0)
  | plus {digits : Text} : IsNumeral most digits →
      IsSigned most ('+' :: digits) (Nat.ofDigitChars 10 digits 0)
  | minus {digits : Text} : IsNumeral most digits →
      IsSigned most ('-' :: digits) (-Nat.ofDigitChars 10 digits 0)

/-- A numeral of at most ten digits for a number that so many bits can store. -/
def WritesUnsigned (bits : Nat) (t : Text) : Prop :=
  IsNumeral 10 t ∧ Nat.ofDigitChars 10 t 0 < 2 ^ bits

/-- The same with a sign or without, where one of the bits is for the sign. -/
def WritesSigned (bits : Nat) (t : Text) : Prop :=
  ∃ n, IsSigned 10 t n ∧ -2 ^ (bits - 1) ≤ n ∧ n < 2 ^ (bits - 1)

theorem natValue_eq (digits : Text) : natValue digits = Nat.ofDigitChars 10 digits 0 := rfl

theorem isDigit_eq (c : Char) : isDigit c = c.isDigit := rfl

theorem IsNumeral.all_isDigit {most : Nat} {t : Text} (numeral : IsNumeral most t) :
    ∀ c ∈ t, isDigit c = true :=
  fun c member => (isDigit_eq c).trans (numeral.digits c member)

theorem nat?_eq_some_iff {most n : Nat} {t : Text} :
    nat? most t = some n ↔ IsNumeral most t ∧ Nat.ofDigitChars 10 t 0 = n := by
  have checks : (!t.isEmpty && t.all isDigit && decide (t.length ≤ most)) = true ↔
      IsNumeral most t := by
    simp only [Bool.and_eq_true, Bool.not_eq_true', List.isEmpty_eq_false_iff, List.all_eq_true,
      decide_eq_true_eq, isDigit_eq]
    exact ⟨fun ⟨⟨nonempty, digits⟩, short⟩ => ⟨nonempty, digits, short⟩,
      fun ⟨nonempty, digits, short⟩ => ⟨⟨nonempty, digits⟩, short⟩⟩
  unfold nat?
  split
  · rename_i checked
    rw [Option.some.injEq, and_iff_right (checks.mp checked), natValue_eq]
  · rename_i unchecked
    refine iff_of_false (fun read => (nomatch read)) fun ⟨numeral, _⟩ => ?_
    exact unchecked (checks.mpr numeral)

/-- A sign is no digit. -/
theorem IsNumeral.head_ne {most : Nat} {c : Char} {t : Text} (numeral : IsNumeral most (c :: t)) :
    c ≠ '-' ∧ c ≠ '+' := by
  have digit := numeral.digits c (List.mem_cons_self ..)
  constructor <;> rintro rfl <;> cases digit

theorem int?_eq_some_iff {most : Nat} {n : Int} {t : Text} :
    int? most t = some n ↔ IsSigned most t n := by
  have number {digits : Text} {k : Int} :
      (do let value ← nat? most digits; pure (value : Int)) = some k ↔
        IsNumeral most digits ∧ (Nat.ofDigitChars 10 digits 0 : Int) = k := by
    simp only [Option.bind_eq_bind, Option.bind_eq_some_iff, Option.pure_def, Option.some.injEq,
      nat?_eq_some_iff]
    exact ⟨fun ⟨_, ⟨numeral, same⟩, value⟩ => ⟨numeral, same ▸ value⟩,
      fun ⟨numeral, value⟩ => ⟨_, ⟨numeral, rfl⟩, value⟩⟩
  constructor
  · intro read
    unfold int? at read
    split at read <;> obtain ⟨value, written, rfl⟩ := Option.map_eq_some_iff.mp read <;>
      obtain ⟨numeral, rfl⟩ := number.mp written
    · exact .minus numeral
    · exact .plus numeral
    · exact .plain numeral
  · intro written
    cases written with
    | minus numeral | plus numeral => rw [int?, number.mpr ⟨numeral, rfl⟩, Option.map_some]
    | plain numeral =>
      have plain := number.mpr ⟨numeral, rfl⟩
      cases t with
      | nil => exact absurd rfl numeral.nonempty
      | cons c t =>
        unfold int?
        split
        · rename_i same
          cases same
          exact absurd rfl numeral.head_ne.1
        · rename_i same
          cases same
          exact absurd rfl numeral.head_ne.2
        · rw [plain, Option.map_some]

theorem splitFirst?_eq_some_iff {sep : Char} {t before after : Text} :
    splitFirst? sep t = some (before, after) ↔ t = before ++ sep :: after ∧ sep ∉ before := by
  refine ⟨fun found => ?_, fun ⟨whole, free⟩ => whole ▸ splitFirst?_append free after⟩
  induction t generalizing before with
  | nil => cases found
  | cons c t ih =>
    rw [splitFirst?] at found
    split at found
    · rename_i same
      cases found
      exact ⟨by rw [same, List.nil_append], List.not_mem_nil⟩
    · rename_i other
      obtain ⟨⟨first, rest⟩, later, parts⟩ := Option.map_eq_some_iff.mp found
      cases parts
      obtain ⟨whole, free⟩ := ih later
      refine ⟨by rw [whole, List.cons_append], ?_⟩
      rw [List.mem_cons, not_or]
      exact ⟨Ne.symm other, free⟩

theorem splitFirst?_eq_none_iff {sep : Char} {t : Text} : splitFirst? sep t = none ↔ sep ∉ t := by
  constructor
  · intro missing member
    obtain ⟨before, after, whole, free⟩ := List.eq_append_cons_of_mem member
    rw [splitFirst?_eq_some_iff.mpr ⟨whole, free⟩] at missing
    cases missing
  · intro free
    cases found : splitFirst? sep t with
    | none => rfl
    | some parts =>
      refine absurd ?_ free
      rw [(splitFirst?_eq_some_iff.mp found).1]
      exact List.mem_append_right _ (List.mem_cons_self ..)

end Text

theorem Weekday.ofCode?_eq_some_iff {t : Text} {day : Weekday} :
    ofCode? t = some day ↔ t = day.code :=
  ⟨fun found => (code_of_ofCode? found).symm, fun same => same ▸ ofCode?_code day⟩

theorem Frequency.ofName?_eq_some_iff {t : Text} {f : Frequency} :
    ofName? t = some f ↔ t = f.name :=
  ⟨fun found => (name_of_ofName? found).symm, fun same => same ▸ ofName?_name f⟩

theorem Part.ofKey?_eq_some_iff {t : Text} {part : Part} : ofKey? t = some part ↔ t = part.key :=
  ⟨fun found => (key_of_ofKey? found).symm, fun same => same ▸ ofKey?_key part⟩

/-- The items that a list part admits. A weekday is a code in any case, with an
ordinal in front or without one; the other parts admit the numbers that they can
store, with a sign only where they can store negative ones. -/
def ListPart.Admits (part : ListPart) (token : Text) : Prop :=
  match part with
  | .setPosition => Text.WritesSigned 32 token
  | .yearDay => Text.WritesSigned 16 token
  | .monthDay | .weekNumber => Text.WritesSigned 8 token
  | .month | .hour | .minute | .second => Text.WritesUnsigned 8 token
  | .weekday => ∃ ordinal, ∃ day : Weekday, Text.upper token = ordinal ++ day.code ∧
      (ordinal = [] ∨ ∃ n, Text.IsSigned 3 ordinal n ∧ n ≠ 0)

/-- The trimmed values that a part admits. -/
def Part.Admits (limits : Limits) (part : Part) (value : Text) : Prop :=
  match part with
  | .frequency => ∃ f : Frequency, Text.upper value = f.name
  | .interval => Text.IsNumeral 10 value ∧ 1 ≤ Nat.ofDigitChars 10 value 0 ∧
      Nat.ofDigitChars 10 value 0 ≤ 65535
  | .count => Text.IsNumeral 10 value ∧ Nat.ofDigitChars 10 value 0 ≤ 4294967295
  | .ends => ∃ t, Timestamp.read value = .ok t
  | .weekStart => ∃ day : Weekday, Text.upper value = day.code
  | .list part => ∃ items, Text.Itemizes value items ∧ items.length ≤ limits.maxListItems ∧
      ∀ token ∈ items, part.Admits token

namespace Rule

theorem readOccurrence?_isSome_iff {token : Text} :
    (∃ d, readOccurrence? token = some d) ↔ ListPart.weekday.Admits token := by
  unfold readOccurrence? ListPart.Admits
  dsimp only
  generalize Text.upper token = t
  constructor
  · rintro ⟨d, read⟩
    split at read
    · cases read
    · rename_i day found
      refine ⟨t.take (t.length - 2), day, ?_, ?_⟩
      · rw [Weekday.code_of_ofCode? found, List.take_append_drop]
      split at read
      · rename_i empty
        exact .inl (List.isEmpty_iff.mp empty)
      · split at read
        · rename_i n number
          split at read
          · rename_i bounds
            exact .inr ⟨n, Text.int?_eq_some_iff.mp number, bounds.1⟩
          · cases read
        · cases read
  · rintro ⟨ordinal, day, rfl, ordinalAdmitted⟩
    rw [List.length_append, day.length_code, Nat.add_sub_cancel, List.drop_left, List.take_left,
      Weekday.ofCode?_code]
    dsimp only
    rcases ordinalAdmitted with rfl | ⟨n, signed, nonzero⟩
    · exact ⟨_, if_pos rfl⟩
    · have number : Text.int? mostOrdinalDigits ordinal = some n := Text.int?_eq_some_iff.mpr signed
      have some : ordinal.isEmpty = false := by
        cases ordinal with
        | nil => cases number
        | cons c rest => rfl
      have small : n.natAbs < 1000 := Text.natAbs_lt_of_int? number
      have stored : n ≠ 0 ∧ -32768 ≤ n ∧ n ≤ 32767 := by omega
      rw [number, some]
      exact ⟨_, if_pos stored⟩

section Numbers

variable {part : ListPart} {bits : Nat} {token : Text}

/-- A part that can store negative numbers reads a number with a sign or without. -/
theorem readNumber?_isSome_iff_of_signed
    (storage : part.storage = (-2 ^ (bits - 1), 2 ^ (bits - 1) - 1)) :
    (∃ d, readNumber? part token = some d) ↔ Text.WritesSigned bits token := by
  have negative : -(2 : Int) ^ (bits - 1) < 0 := Int.neg_neg_of_pos (Int.pow_pos (by decide))
  unfold readNumber? Text.WritesSigned
  rw [storage]
  dsimp only
  rw [if_pos negative]
  constructor
  · rintro ⟨d, read⟩
    split at read
    · rename_i n number
      split at read
      · rename_i bounds
        exact ⟨n, Text.int?_eq_some_iff.mp number, bounds.1, Int.lt_of_le_sub_one bounds.2⟩
      · cases read
    · cases read
  · rintro ⟨n, written, low, high⟩
    have number : Text.int? mostDigits token = some n := Text.int?_eq_some_iff.mpr written
    rw [number]
    exact ⟨_, if_pos ⟨low, Int.le_sub_one_of_lt high⟩⟩

/-- A part that cannot reads a number without a sign. -/
theorem readNumber?_isSome_iff_of_unsigned (storage : part.storage = (0, 2 ^ bits - 1)) :
    (∃ d, readNumber? part token = some d) ↔ Text.WritesUnsigned bits token := by
  have inside (n : Nat) : (0 : Int) ≤ n ∧ (n : Int) ≤ 2 ^ bits - 1 ↔ n < 2 ^ bits := by
    rw [and_iff_right (Int.natCast_nonneg n), Int.le_sub_one_iff]
    exact_mod_cast Iff.rfl
  unfold readNumber? Text.WritesUnsigned
  rw [storage]
  dsimp only
  rw [if_neg (lt_irrefl _)]
  constructor
  · rintro ⟨d, read⟩
    split at read
    · rename_i n number
      obtain ⟨m, digits, rfl⟩ := Option.map_eq_some_iff.mp number
      obtain ⟨numeral, rfl⟩ := Text.nat?_eq_some_iff.mp digits
      split at read
      · rename_i bounds
        exact ⟨numeral, (inside _).mp bounds⟩
      · cases read
    · cases read
  · rintro ⟨numeral, bound⟩
    have number : Text.nat? mostDigits token = some _ := Text.nat?_eq_some_iff.mpr ⟨numeral, rfl⟩
    rw [number]
    exact ⟨_, if_pos ((inside _).mpr bound)⟩

theorem readNumber?_isSome_iff (numeric : part ≠ .weekday) :
    (∃ d, readNumber? part token = some d) ↔ part.Admits token := by
  cases part with
  | weekday => exact absurd rfl numeric
  | setPosition | yearDay | monthDay | weekNumber => exact readNumber?_isSome_iff_of_signed rfl
  | month | hour | minute | second => exact readNumber?_isSome_iff_of_unsigned rfl

end Numbers

theorem readItem_ok_iff {part : ListPart} {token : Text} :
    (∃ d, readItem part token = .ok d) ↔ part.Admits token := by
  by_cases weekday : part = .weekday
  · rw [weekday, ← readOccurrence?_isSome_iff, readItem]
    cases readOccurrence? token with
    | none => exact iff_of_false (fun ⟨_, read⟩ => nomatch read) fun ⟨_, found⟩ => nomatch found
    | some d => exact iff_of_true ⟨_, rfl⟩ ⟨d, rfl⟩
  · rw [← readNumber?_isSome_iff weekday, readItem.eq_def]
    split
    · exact absurd rfl weekday
    · cases readNumber? _ token with
      | none => exact iff_of_false (fun ⟨_, read⟩ => nomatch read) fun ⟨_, found⟩ => nomatch found
      | some d => exact iff_of_true ⟨_, rfl⟩ ⟨d, rfl⟩

section Values

variable {limits : Limits} {value : Text}

theorem readList_ok_iff {part : ListPart} :
    (∃ items, readList limits part value = .ok items) ↔ (Part.list part).Admits limits value := by
  unfold readList Part.Admits
  simp only [Text.itemizes_iff, exists_eq_left']
  by_cases few : ((Text.split ',' value).map trim).length ≤ limits.maxListItems
  · rw [if_neg (Nat.not_lt.mpr few), readItems_eq, Outcome.mapM_ok_iff, and_iff_right few]
    exact forall₂_congr fun token _ => readItem_ok_iff
  · rw [if_pos (Nat.lt_of_not_le few)]
    exact iff_of_false (fun ⟨_, read⟩ => nomatch read) fun ⟨fits, _⟩ => few fits

theorem readValue_frequency_ok_iff (trimmed : trim value = value) :
    (∃ setting, readValue limits .frequency value = .ok setting) ↔
      Part.frequency.Admits limits value := by
  simp only [readValue, trimmed, Part.Admits, ← Frequency.ofName?_eq_some_iff]
  cases Frequency.ofName? (Text.upper value) <;> simp

theorem readValue_weekStart_ok_iff :
    (∃ setting, readValue limits .weekStart value = .ok setting) ↔
      Part.weekStart.Admits limits value := by
  simp only [readValue, Part.Admits, ← Weekday.ofCode?_eq_some_iff]
  cases Weekday.ofCode? (Text.upper value) <;> simp

/-- A number is read just when its numeral is one and it is within its bounds. -/
theorem exists_ok_of_nat?_iff (fits : Nat → Prop) [DecidablePred fits] (make : Nat → Setting)
    (e : ReadError) :
    (∃ setting, (match Text.nat? mostDigits value with
      | some n => if fits n then Except.ok (make n) else .error e
      | none => .error e) = .ok setting) ↔
      Text.IsNumeral 10 value ∧ fits (Nat.ofDigitChars 10 value 0) := by
  constructor
  · rintro ⟨setting, read⟩
    split at read
    · rename_i n number
      obtain ⟨numeral, rfl⟩ := Text.nat?_eq_some_iff.mp number
      split at read
      · rename_i bounds
        exact ⟨numeral, bounds⟩
      · cases read
    · cases read
  · rintro ⟨numeral, bounds⟩
    have number : Text.nat? mostDigits value = some _ := Text.nat?_eq_some_iff.mpr ⟨numeral, rfl⟩
    rw [number]
    exact ⟨_, if_pos bounds⟩

theorem readValue_interval_ok_iff :
    (∃ setting, readValue limits .interval value = .ok setting) ↔
      Part.interval.Admits limits value :=
  exists_ok_of_nat?_iff (fun n => 1 ≤ n ∧ n ≤ maxInterval) .interval _

theorem readValue_count_ok_iff :
    (∃ setting, readValue limits .count value = .ok setting) ↔ Part.count.Admits limits value :=
  exists_ok_of_nat?_iff (· ≤ maxCount) .count _

/-- A timestamp that is read is within the years, so that it can be kept. -/
theorem readValue_ends_ok_iff :
    (∃ setting, readValue limits .ends value = .ok setting) ↔ Part.ends.Admits limits value := by
  rw [Part.Admits, readValue]
  cases read : Timestamp.read value with
  | error e => simp
  | ok t =>
    refine iff_of_true ?_ ⟨t, rfl⟩
    dsimp only
    split
    · exact ⟨_, rfl⟩
    · rename_i missing
      cases (Timestamp.normalize?_of_read read).symm.trans missing

theorem readValue_list_ok_iff {part : ListPart} :
    (∃ setting, readValue limits (.list part) value = .ok setting) ↔
      (Part.list part).Admits limits value := by
  rw [← readList_ok_iff, readValue]
  cases readList limits part value <;> simp [Except.map]

/-- A trimmed value is read just when its part admits it. -/
theorem readValue_ok_iff {part : Part} (trimmed : trim value = value) :
    (∃ setting, readValue limits part value = .ok setting) ↔ part.Admits limits value := by
  cases part with
  | frequency => exact readValue_frequency_ok_iff trimmed
  | interval => exact readValue_interval_ok_iff
  | count => exact readValue_count_ok_iff
  | ends => exact readValue_ends_ok_iff
  | weekStart => exact readValue_weekStart_ok_iff
  | list part => exact readValue_list_ok_iff

end Values

end Rule

end Recurrence
