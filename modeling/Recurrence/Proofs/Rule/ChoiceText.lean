import Recurrence.Proofs.Rule.Naming
import Recurrence.Proofs.Rule.Settling

namespace Recurrence.Rule

open Text (isBlank isToken trim)

/-- The ordinal, where a value has a place for one, and the day of a weekday
occurrence. -/
def occurrenceShape (d : Datum) : Option Datum × Datum :=
  match d with
  | .nth ordinal day => (some ordinal, day)
  | .every day => (none, day)
  | _ =>
    match d.asPair? with
    | some (ordinal, day) => (some ordinal, day)
    | none => (none, d)

theorem occurrenceParts_eq (d : Datum) :
    occurrenceParts d = ((occurrenceShape d).1.getD .none, (occurrenceShape d).2) := by
  cases d with
  | list items =>
    simp only [occurrenceParts, occurrenceShape]
    cases (Datum.list items).asPair? <;> rfl
  | tuple items =>
    simp only [occurrenceParts, occurrenceShape]
    cases (Datum.tuple items).asPair? <;> rfl
  | _ => rfl

theorem occurrenceText_eq (d : Datum) :
    occurrenceText d =
      (occurrenceShape d).1.elim [] Datum.text ++ (occurrenceShape d).2.token := by
  cases d with
  | list items =>
    simp only [occurrenceText, occurrenceShape]
    cases (Datum.list items).asPair? <;> rfl
  | tuple items =>
    simp only [occurrenceText, occurrenceShape]
    cases (Datum.tuple items).asPair? <;> rfl
  | _ => rfl

/-- Whether a text can name the weekday occurrence as the value does: by the code
of the day, which follows the ordinal at once where there is one. -/
def isCodedOccurrence (d : Datum) : Bool :=
  match occurrenceShape d with
  | (none, day) => day.isCode
  | (some ordinal, day) => ordinal != .none && day.isCode && !day.beginsBlank

theorem readChoice_eq (d : Datum) {ordinal : Option Datum} {day : Datum}
    (shape : occurrenceShape d = (ordinal, day)) {choice : Datum}
    (read : readChoice d = .ok choice) :
    ∃ weekday, day.toWeekday = .ok weekday ∧
      ((ordinal.getD .none = .none ∧ choice = .every (.weekday weekday)) ∨
        ∃ n : Int, ordinal = some (.int n) ∧ choice = .nth (.int n) (.weekday weekday)) := by
  have parts := occurrenceParts_eq d
  rw [shape] at parts
  simp only [readChoice, parts] at read
  split at read
  · cases read
  · rename_i weekday named
    refine ⟨weekday, named, ?_⟩
    split at read
    · rename_i missing
      cases read
      exact .inl ⟨missing, rfl⟩
    · rename_i n isInt
      cases read
      cases ordinal with
      | none => cases isInt
      | some ordinal => exact .inr ⟨n, congrArg some isInt, rfl⟩
    · cases read

theorem readOccurrence?_of_isCalled {day : Weekday} {name : Text} (called : day.IsCalled name) :
    readOccurrence? name = if name = day.code then some (.every (.weekday day)) else none := by
  rcases called with rfl | rfl | rfl <;> cases day <;> rfl

/-- What is read after something in front is the code of a day after an integer. -/
theorem code_of_readOccurrence?_append {before name : Text} {day : Weekday} {choice : Datum}
    (called : day.IsCalled name) (nonempty : Text.upper before ≠ [])
    (read : readOccurrence? (before ++ name) = some choice) :
    name = day.code ∧ ∃ n, Text.int? mostOrdinalDigits (Text.upper before) = some n := by
  obtain ⟨long, back⟩ := Weekday.ofCode?_drop_of_isCalled called
  have tokens := Weekday.all_isToken_of_isCalled called
  have whole : Text.upper (before ++ name) = Text.upper before ++ name := by
    rw [Text.upper_append, Text.upper_of_isToken tokens]
  have rest : (Text.upper before ++ name).drop ((Text.upper before ++ name).length - 2) =
      name.drop (name.length - 2) := by
    rw [List.length_append, Nat.add_sub_assoc long, List.drop_append, List.drop_eq_nil_of_le (by omega),
      List.nil_append, Nat.add_sub_cancel_left]
  simp only [readOccurrence?, whole, rest, back] at read
  by_cases isCode : name = day.code
  · refine ⟨isCode, ?_⟩
    have two : name.length = 2 := by
      rw [isCode]
      cases day <;> rfl
    have front : (Text.upper before ++ name).take ((Text.upper before ++ name).length - 2) =
        Text.upper before := by
      rw [List.length_append, two, Nat.add_sub_cancel, List.take_left']
      rfl
    rw [front] at read
    simp only [isCode, if_true, List.isEmpty_eq_false_iff.mpr nonempty, Bool.false_eq_true,
      if_false] at read
    split at read
    · rename_i n number
      exact ⟨n, number⟩
    · cases read
  · simp only [isCode, if_false] at read
    cases read

/-- A weekday by itself is read back just when it is named by its code. -/
theorem readOccurrence?_token {d : Datum} {day : Weekday} (named : d.toWeekday = .ok day) :
    readOccurrence? (trim d.token) =
      if d.isCode = true then some (.every (.weekday day)) else none := by
  obtain ⟨front, name, back, calls⟩ := Datum.exists_callsDay named
  have tokens := Weekday.all_isToken_of_isCalled calls.called
  rw [calls.token, Text.trim_blanks_around calls.blankFront tokens calls.blankBack,
    readOccurrence?_of_isCalled calls.called]
  simp only [calls.isCode]

/-- After an ordinal a weekday is read back just when it is named by its code and
follows at once. -/
theorem readOccurrence?_ordinal_token {n : Int} {d : Datum} {day : Weekday}
    (named : d.toWeekday = .ok day) (nonzero : n ≠ 0) (short : n.natAbs < 10 ^ mostOrdinalDigits) :
    (d.isCode = true → d.beginsBlank = false →
      readOccurrence? (trim (Text.ofInt n ++ d.token)) = some (.nth (.int n) (.weekday day))) ∧
    ∀ item, readOccurrence? (trim (Text.ofInt n ++ d.token)) = some item →
      d.isCode = true ∧ d.beginsBlank = false := by
  obtain ⟨front, name, back, calls⟩ := Datum.exists_callsDay named
  have digits := Text.all_isToken_ofInt n
  have nonempty : Text.ofInt n ≠ [] := by
    cases n with
    | ofNat n => exact Text.ofNat_ne_nil n
    | negSucc n => simp [Text.ofInt]
  have tokens := Weekday.all_isToken_of_isCalled calls.called
  have visible : name ≠ [] := Weekday.ne_nil_of_isCalled calls.called
  have text : trim (Text.ofInt n ++ d.token) = Text.ofInt n ++ front ++ name := by
    rw [calls.token, ← List.append_assoc, ← List.append_assoc,
      Text.trim_between (Text.visible_of_isToken digits) nonempty (Text.visible_of_isToken tokens)
        visible calls.blankBack]
  have unspaced : d.beginsBlank = false ↔ front = [] := by
    rw [← Bool.not_eq_true, calls.beginsBlank, not_not]
  rw [text, calls.isCode, unspaced]
  constructor
  · rintro rfl rfl
    rw [List.append_nil, readOccurrence?_ordinal nonzero short]
  · intro item read
    have upper : Text.upper (Text.ofInt n ++ front) = Text.ofInt n ++ front := by
      rw [Text.upper_append, Text.upper_of_isToken digits, Text.upper_of_blank calls.blankFront]
    obtain ⟨code, m, number⟩ := code_of_readOccurrence?_append calls.called
      (by rw [upper]; exact List.append_ne_nil_of_left_ne_nil nonempty _) read
    refine ⟨code, ?_⟩
    have all := Text.all_isToken_of_int? number
    rw [upper, List.all_append, digits, Bool.true_and] at all
    cases front with
    | nil => rfl
    | cons c front =>
      have blank := calls.blankFront
      rw [List.all_cons, Bool.and_eq_true] at all
      rw [List.all_cons, Text.isBlank_of_isToken all.1] at blank
      cases blank

/-- An ordinal that is missing where one has its place is written as a word, and
so cannot be read back. -/
theorem readOccurrence?_none_token {d : Datum} {day : Weekday} (named : d.toWeekday = .ok day)
    (item : Datum) : readOccurrence? (trim (Datum.none.text ++ d.token)) ≠ some item := by
  intro read
  obtain ⟨front, name, back, calls⟩ := Datum.exists_callsDay named
  have tokens := Weekday.all_isToken_of_isCalled calls.called
  have visible : name ≠ [] := Weekday.ne_nil_of_isCalled calls.called
  have first : (['N'] : Text).all isToken = true := rfl
  have word : Datum.none.text ++ d.token = ['N'] ++ (['o', 'n', 'e'] ++ front) ++ name ++ back := by
    rw [calls.token, ← List.append_assoc, ← List.append_assoc]
    rfl
  rw [word, Text.trim_between (Text.visible_of_isToken first) (by simp)
    (Text.visible_of_isToken tokens) visible calls.blankBack] at read
  have upper : Text.upper (['N'] ++ (['o', 'n', 'e'] ++ front)) =
      'N' :: (['O', 'N', 'E'] ++ Text.upper front) := by
    rw [Text.upper_append, Text.upper_append]
    rfl
  obtain ⟨-, n, number⟩ := code_of_readOccurrence?_append calls.called (by rw [upper]; simp) read
  rw [upper] at number
  cases number

/-- The text of a valid weekday occurrence is read back as what the occurrence is
read as, or not at all; it is read back just when the day is named by its code. -/
theorem readOccurrence?_occurrenceText {d choice : Datum} (read : readChoice d = .ok choice)
    (holds : ListPart.weekday.Holds choice) :
    (isCodedOccurrence d = true → readOccurrence? (trim (occurrenceText d)) = some choice) ∧
      ∀ item, readOccurrence? (trim (occurrenceText d)) = some item →
        isCodedOccurrence d = true := by
  have text := occurrenceText_eq d
  unfold isCodedOccurrence
  cases shape : occurrenceShape d with
  | mk place day =>
    rw [shape] at text
    obtain ⟨weekday, named, cases⟩ := readChoice_eq d shape read
    cases place with
    | none =>
      have every : choice = .every (.weekday weekday) := by
        rcases cases with ⟨-, every⟩ | ⟨n, place, -⟩
        · exact every
        · cases place
      change occurrenceText d = day.token at text
      rw [text, readOccurrence?_token named, every]
      dsimp only
      split <;> simp_all
    | some ordinal =>
      change occurrenceText d = ordinal.text ++ day.token at text
      rw [text]
      rcases cases with ⟨missing, -⟩ | ⟨n, isInt, rfl⟩
      · have missing : ordinal = .none := missing
        rw [missing]
        exact ⟨fun coded => (nomatch coded), fun item found =>
          absurd found (readOccurrence?_none_token named item)⟩
      · cases isInt
        obtain ⟨nonzero, short⟩ : n ≠ 0 ∧ n.natAbs < 10 ^ mostOrdinalDigits := by
          rcases holds with ⟨_, same⟩ | ⟨_, _, same, bounds⟩ <;> cases same
          exact bounds
        have present : (Datum.int n != .none) = true := rfl
        dsimp only
        rw [present, Bool.true_and, Bool.and_eq_true, Bool.not_eq_true']
        obtain ⟨back, coded⟩ := readOccurrence?_ordinal_token named nonzero short
        exact ⟨fun both => back both.1 both.2, coded⟩

theorem readItem_weekday_iff {token : Text} {item : Datum} :
    readItem .weekday token = .ok item ↔ readOccurrence? token = some item := by
  rw [readItem]
  split <;> simp_all

/-- The texts of valid weekday occurrences are read back as what they are, or some
of them cannot be read; they are read back just when all of them name their days
by codes. -/
theorem readItems_occurrenceText {values choices : List Datum}
    (read : readChoices values = .ok choices)
    (holds : ∀ choice ∈ choices, ListPart.weekday.Holds choice) :
    (values.all isCodedOccurrence = true →
      readItems .weekday ((values.map occurrenceText).map trim) = .ok choices) ∧
    ∀ items, readItems .weekday ((values.map occurrenceText).map trim) = .ok items →
      values.all isCodedOccurrence = true := by
  rw [readChoices_eq, Outcome.mapM_eq_ok_iff] at read
  simp only [readItems_eq, Outcome.mapM_eq_ok_iff, List.forall₂_map_left_iff, readItem_weekday_iff]
  rw [List.all_eq_true]
  induction read with
  | nil => exact ⟨fun _ => .nil, fun _ _ _ member => nomatch member⟩
  | cons first _ ih =>
    rw [List.forall_mem_cons] at holds
    obtain ⟨back, coded⟩ := readOccurrence?_occurrenceText first holds.1
    obtain ⟨backs, allCoded⟩ := ih holds.2
    rw [List.forall_mem_cons]
    constructor
    · rintro ⟨dCoded, valuesCoded⟩
      exact .cons (back dCoded) (backs valuesCoded)
    · intro items made
      cases made with
      | cons firstMade restMade => exact ⟨coded _ firstMade, allCoded _ restMade⟩

/-- The text of a valid weekday occurrence has no separators. -/
theorem notMem_occurrenceText {d choice : Datum} (read : readChoice d = .ok choice) {c : Char}
    (separator : isToken c = false) (visible : isBlank c = false) (word : c ∉ Datum.none.text) :
    c ∉ occurrenceText d := by
  rw [occurrenceText_eq]
  cases shape : occurrenceShape d with
  | mk place day =>
    obtain ⟨weekday, named, cases⟩ := readChoice_eq d shape read
    have ordinal : c ∉ place.elim [] Datum.text := by
      cases place with
      | none => exact List.not_mem_nil
      | some ordinal =>
        rcases cases with ⟨missing, -⟩ | ⟨n, isInt, -⟩
        · have missing : ordinal = .none := missing
          rw [missing]
          exact word
        · cases isInt
          exact Text.notMem_of_isToken separator (Text.all_isToken_ofInt n)
    rw [List.mem_append, not_or]
    exact ⟨ordinal, Datum.notMem_token_of_toWeekday named separator visible⟩

end Recurrence.Rule
