import Recurrence.Proofs.Calendar.TimestampLength
import Recurrence.Proofs.Rule.Grammar
import Recurrence.Proofs.Rule.RoundTrip
import Recurrence.Proofs.Text.Capitals

namespace Recurrence

open Text (isDigit joins trim)

namespace Text

/-- A number is written with no more digits than it was read from. -/
theorem length_ofNat_le_of_nat? {most n : Nat} {t : Text} (read : nat? most t = some n) :
    (ofNat n).length ≤ t.length := by
  unfold nat? at read
  split at read
  · rename_i checked
    cases read
    simp only [Bool.and_eq_true, Bool.not_eq_true', List.isEmpty_eq_false_iff] at checked
    exact length_ofNat_le (List.length_pos_iff.mpr checked.1.1) (natValue_lt checked.1.2)
  · cases read

theorem length_ofInt_le_of_int? {most : Nat} {n : Int} {t : Text} (read : int? most t = some n) :
    (ofInt n).length ≤ t.length := by
  have minus (m : Nat) : (ofInt (-(m : Int))).length ≤ (ofNat m).length + 1 := by
    cases m with
    | zero => exact Nat.le_succ _
    | succ m => exact Nat.le_refl _
  unfold int? at read
  split at read
  all_goals
    simp only [Option.map_eq_some_iff, Option.bind_eq_bind, Option.bind_eq_some_iff, Option.pure_def,
      Option.some.injEq] at read
    obtain ⟨_, ⟨m, number, rfl⟩, rfl⟩ := read
    have digits := length_ofNat_le_of_nat? number
  · exact (minus m).trans (Nat.succ_le_succ digits)
  · exact digits.trans (Nat.le_succ _)
  · exact digits

theorem length_join_le {sep : Text} {texts others : List Text}
    (each : List.Forall₂ (fun text other => text.length ≤ other.length) texts others) :
    (join sep texts).length ≤ (join sep others).length := by
  induction each with
  | nil => exact Nat.le_refl 0
  | cons first rest ih =>
    cases rest with
    | nil => exact first
    | cons _ _ =>
      simp only [join, List.length_append] at ih ⊢
      omega

/-- A signed numeral has no letters. -/
theorem IsSigned.plain_letters {most : Nat} {n : Int} {t : Text} (written : IsSigned most t n) :
    ∀ c ∈ t, c ≠ 'S' ∧ c ≠ 'F' := by
  have digit {c : Char} (isDigit : isDigit c = true) : c ≠ 'S' ∧ c ≠ 'F' := by
    constructor <;> rintro rfl <;> cases isDigit
  intro c member
  cases written with
  | plain numeral => exact digit (numeral.all_isDigit c member)
  | plus numeral | minus numeral =>
    rcases List.mem_cons.mp member with rfl | member
    · decide
    · exact digit (numeral.all_isDigit c member)

theorem length_le_of_upper_eq {t name : Text} (tokens : name.all isToken = true)
    (same : upper t = name) : name.length ≤ t.length + joins name := by
  have ascii : ∀ c ∈ upper t, c.toNat < 128 := by
    intro c member
    have bounds := bounds_of_isToken (List.all_eq_true.mp (same ▸ tokens) c member)
    omega
  have length := length_upper_le ascii
  rwa [same] at length

end Text

theorem Weekday.length_code_le {t : Text} {day : Weekday} (same : Text.upper t = day.code) :
    day.code.length ≤ t.length := by
  have none : joins day.code = 0 := by cases day <;> rfl
  have length := Text.length_le_of_upper_eq day.all_isToken_code same
  rwa [none] at length

theorem Frequency.length_name_le {t : Text} {f : Frequency} (same : Text.upper t = f.name) :
    f.name.length ≤ t.length := by
  have none : joins f.name = 0 := by cases f <;> rfl
  have length := Text.length_le_of_upper_eq f.all_isToken_name same
  rwa [none] at length

/-- A key is shorter than its part's only where the end of the week start's is one
letter. -/
theorem Part.length_key_le {t : Text} {part : Part} (same : Text.upper t = part.key) :
    part.key.length ≤ t.length + if part = .weekStart then 1 else 0 := by
  have joined : joins part.key = if part = .weekStart then 1 else 0 := by
    cases part with
    | list p => cases p <;> rfl
    | _ => rfl
  rw [← joined]
  exact Text.length_le_of_upper_eq part.all_isToken_key same

namespace Rule

theorem length_occurrenceText_le {token : Text} {d : Datum}
    (read : readOccurrence? token = some d) : (occurrenceText d).length ≤ token.length := by
  unfold readOccurrence? at read
  dsimp only at read
  split at read
  · cases read
  · rename_i day found
    have code := Weekday.code_of_ofCode? found
    have whole := List.take_append_drop ((Text.upper token).length - 2) (Text.upper token)
    rw [← code] at whole
    generalize (Text.upper token).take ((Text.upper token).length - 2) = ordinal at read whole
    split at read
    · rename_i empty
      cases read
      rw [List.isEmpty_iff.mp empty] at whole
      have text : occurrenceText (.every (.weekday day)) = day.code := Datum.token_weekday day
      rw [text]
      exact Weekday.length_code_le whole.symm
    · split at read
      · rename_i n number
        split at read
        · cases read
          have tokens : (ordinal ++ day.code).all Text.isToken = true := by
            rw [List.all_append, Text.all_isToken_of_int? number, day.all_isToken_code]
            rfl
          have apart : joins (ordinal ++ day.code) = 0 := by
            rw [Text.joins_append_of_plain (Text.int?_eq_some_iff.mp number).plain_letters]
            cases day <;> rfl
          have longer := Text.length_le_of_upper_eq tokens whole.symm
          have digits := Text.length_ofInt_le_of_int? number
          rw [apart, List.length_append] at longer
          rw [occurrenceText_nth, List.length_append]
          omega
        · cases read
      · cases read

/-- No item of a list is longer in the canonical text. -/
theorem length_itemText_le {part : ListPart} {token : Text} {d : Datum}
    (read : readItem part token = .ok d) : (itemText part d).length ≤ token.length := by
  unfold readItem at read
  split at read
  · split at read <;> cases read
    rename_i found
    exact length_occurrenceText_le found
  · rename_i numeric
    split at read <;> cases read
    rename_i found
    rw [itemText, if_neg numeric]
    unfold readNumber? at found
    dsimp only at found
    split at found
    · rename_i n number
      split at found <;> cases found
      split at number
      · exact Text.length_ofInt_le_of_int? number
      · obtain ⟨m, digits, rfl⟩ := Option.map_eq_some_iff.mp number
        exact Text.length_ofNat_le_of_nat? digits
    · cases found

theorem length_list_le {limits : Limits} {part : ListPart} {value : Text} {items : List Datum}
    (read : readList limits part value = .ok items) :
    (Text.join [','] (items.map (itemText part))).length ≤ value.length := by
  unfold readList at read
  dsimp only at read
  split at read
  · cases read
  · rw [readItems_eq, Outcome.mapM_eq_ok_iff, List.forall₂_map_left_iff] at read
    have each : List.Forall₂ (fun text other => text.length ≤ other.length)
        (items.map (itemText part)) (Text.split ',' value) := by
      rw [List.forall₂_map_left_iff]
      refine List.Forall₂.flip (read.imp fun token d itemRead => ?_)
      exact (length_itemText_le itemRead).trans (Text.length_trim_le token)
    have whole : (Text.join [','] (items.map (itemText part))).length ≤
        (Text.join [','] (Text.split ',' value)).length := Text.length_join_le each
    rwa [Text.join_split] at whole

theorem part_of_readValue {limits : Limits} {part : Part} {value : Text} {setting : Setting}
    (read : readValue limits part value = .ok setting) : setting.part = part := by
  cases part with
  | list part =>
    rw [readValue] at read
    cases items : readList limits part value with
    | error e =>
      rw [items] at read
      cases read
    | ok items' =>
      rw [items] at read
      cases read
      rfl
  | frequency | weekStart =>
    rw [readValue] at read
    split at read <;> cases read
    rfl
  | interval | count | ends =>
    rw [readValue] at read
    split at read
    · split at read <;> cases read
      rfl
    · cases read

/-- The most characters by which the end of a rule is longer in the canonical text
than in the text that it is read from. -/
def endGrowth : EndForm → Nat
  | .extended => 16
  | .basic => 12

/-- An end is written with a date of four characters at least, and with the whole
time where it has milliseconds. -/
theorem length_endText_le {value : Text} {t u : Timestamp} (read : Timestamp.read value = .ok t)
    (kept : t.normalize? = some u) (form : EndForm) :
    (endText form (.moment u)).length ≤ value.length + endGrowth form := by
  obtain ⟨least, time⟩ := Timestamp.length_of_read read
  obtain rfl : t.cutMillis = u := by
    rw [Timestamp.normalize?_of_read read] at kept
    exact Option.some.inj kept
  have millis : t.cutMillis.micros / 1000 ≠ 0 → 13 ≤ value.length := by
    intro some
    refine time.resolve_left fun whole => some ?_
    have cut : t.cutMillis.micros = t.micros - t.micros % 1000 := rfl
    rw [cut, whole]
  rw [endText, Timestamp.length_utcText]
  by_cases whole : t.cutMillis.micros / 1000 = 0
  · rw [if_pos whole]
    cases form
    · exact Nat.add_le_add_right least 16
    · exact Nat.add_le_add_right least 12
  · rw [if_neg whole]
    have time := millis whole
    cases form <;> simp only [endGrowth] <;> omega

/-- No value but the end is longer in the canonical text. -/
theorem length_value_le {limits : Limits} {part : Part} {value written : Text} {setting : Setting}
    {r : Rule} {form : EndForm} (trimmed : trim value = value)
    (read : readValue limits part value = .ok setting) (holds : r.draft part = setting.value)
    (text : r.valueText? form part = some written) :
    written.length ≤ value.length + if part = .ends then endGrowth form else 0 := by
  cases part with
  | frequency =>
    rw [readValue, trimmed] at read
    split at read <;> cases read
    rename_i f found
    rw [valueText?, show r.frequency = .frequency f from holds, Datum.token_frequency] at text
    cases text
    exact Frequency.length_name_le (Frequency.name_of_ofName? found).symm
  | weekStart =>
    rw [readValue] at read
    split at read <;> cases read
    rename_i day found
    rw [valueText?, show r.weekStart = .weekday day from holds, Datum.token_weekday] at text
    split at text <;> cases text
    exact Weekday.length_code_le (Weekday.code_of_ofCode? found).symm
  | interval =>
    rw [readValue] at read
    split at read
    · rename_i n number
      split at read <;> cases read
      rw [valueText?, show r.interval = .int n from holds] at text
      split at text <;> cases text
      exact Text.length_ofNat_le_of_nat? number
    · cases read
  | count =>
    rw [readValue] at read
    split at read
    · rename_i n number
      split at read <;> cases read
      rw [valueText?, show r.count = .int n from holds] at text
      split at text <;> cases text
      exact Text.length_ofNat_le_of_nat? number
    · cases read
  | ends =>
    rw [readValue] at read
    split at read
    · rename_i t found
      split at read
      · rename_i u kept
        cases read
        rw [valueText?, show r.ends = .moment u from holds] at text
        split at text <;> cases text
        exact length_endText_le found kept form
      · cases read
    · cases read
  | list part =>
    rw [readValue] at read
    cases found : readList limits part value with
    | error e =>
      rw [found] at read
      cases read
    | ok items =>
      rw [found] at read
      cases read
      have values : r.values part = items := Datum.tuple.inj holds
      rw [valueText?, values] at text
      split at text <;> cases text
      exact length_list_le found

end Rule

end Recurrence
