import Recurrence.Proofs.Rule.Drafts
import Recurrence.Proofs.Rule.Settling
import Recurrence.Rule.Setting

namespace Recurrence

namespace Datum

variable {d e : Datum}

/-- A weekday occurrence that is recognized early is read as what it was recognized from. -/
theorem readChoice_of_toOccurrence (found : d.toOccurrence = .ok e) :
    Rule.readChoice e = Rule.readChoice d := by
  have whole (day : Weekday) (ordinal : Datum) (name : Datum)
      (parts : Rule.occurrenceParts d = (ordinal, name)) (named : name.toWeekday = .ok day) :
      Rule.readChoice d = Rule.readChoice (.nth ordinal (.weekday day)) := by
    simp only [Rule.readChoice, parts, named]
    rfl
  have shape (notEvery : ∀ day, d ≠ .every day) (notNth : ∀ ordinal day, d ≠ .nth ordinal day) :
      Rule.occurrenceParts d = d.asPair?.getD (.none, d) := by
    cases d with
    | every day => exact absurd rfl (notEvery day)
    | nth ordinal day => exact absurd rfl (notNth ordinal day)
    | _ => rfl
  unfold toOccurrence at found
  split at found
  · cases found
    rfl
  · cases found
    rfl
  · rename_i notEvery notNth
    split at found
    · rename_i text isText
      obtain ⟨day, named, made⟩ := Outcome.bind_eq_ok.mp found
      cases made
      have single : d.asPair? = Option.none := by cases d <;> first | rfl | cases isText
      have parts := shape notEvery notNth
      rw [single] at parts
      exact (whole day .none d parts named).symm
    · split at found
      · rename_i n name pair
        obtain ⟨day, named, made⟩ := Outcome.bind_eq_ok.mp found
        cases made
        have parts := shape notEvery notNth
        rw [pair] at parts
        exact (whole day (.int n) name parts named).symm
      · cases found

theorem readChoices_of_toOccurrence {items choices : List Datum}
    (found : items.mapM toOccurrence = .ok choices) :
    Rule.readChoices choices = Rule.readChoices items := by
  have each := Outcome.mapM_eq_ok_iff.mp found
  clear found
  induction each with
  | nil => rfl
  | cons first _ ih => rw [Rule.readChoices, Rule.readChoices, ih, readChoice_of_toOccurrence first]

end Datum

theorem Datum.toItems_of_not_truthy {d : Datum} (empty : ¬d.truthy = true) : d.toItems = .ok [] := by
  cases d with
  | tuple items =>
    cases items with
    | nil => rfl
    | cons d items => exact absurd rfl empty
  | _ => simp only [toItems, empty, if_false, Bool.false_eq_true]

namespace Rule

variable {r s : Rule}

/-- Whether a rule is what is made of a draft. -/
structure IsMadeOf (r : Rule) (d : Draft) : Prop where
  frequency : r.frequency = d .frequency
  interval : r.interval = d .interval
  count : r.count = d .count
  weekStart : r.weekStart = d .weekStart
  ends : (normalEnd (d .ends)).map Subtype.val = .ok r.ends
  values : ∀ part, (d (.list part)).toItems = .ok (r.values part)

theorem ofDraft_ok_iff {d : Draft} : ofDraft d = .ok r ↔ r.IsMadeOf d := by
  unfold ofDraft
  simp only [Outcome.bind_eq_ok, Outcome.pure_eq_ok]
  constructor
  · rintro ⟨setPositions, setPosition, months, month, monthDays, monthDay, yearDays, yearDay, weekNumbers,
      weekNumber, weekdays, weekday, hours, hour, minutes, minute, seconds, second, ends, ending, rfl⟩
    refine ⟨rfl, rfl, rfl, rfl, by rw [ending]; rfl, fun part => ?_⟩
    cases part <;> assumption
  · intro made
    obtain ⟨ends, ending, same⟩ := Outcome.map_eq_ok.mp made.ends
    refine ⟨_, made.values _, _, made.values _, _, made.values _, _, made.values _, _, made.values _, _,
      made.values _, _, made.values _, _, made.values _, _, made.values _, ends, ending, ?_⟩
    obtain ⟨frequency, interval, count, weekStart, _, _⟩ := made
    cases r
    cases ends
    simp_all [Rule.values]

/-- Whether one rule has what the frequency, the start of the week and the weekdays of the other
name in place of the names, and is the same otherwise. -/
structure Recognizes (s r : Rule) : Prop where
  frequency : ∃ f, r.frequency.toFrequency = .ok f ∧ s.frequency = .frequency f
  weekStart : ∃ day, r.weekStart.toWeekday = .ok day ∧ s.weekStart = .weekday day
  weekdays : r.weekdays.mapM Datum.toOccurrence = .ok s.weekdays
  interval : s.interval = r.interval
  count : s.count = r.count
  ends : s.ends = r.ends
  numbers : ∀ part, part ≠ .weekday → s.values part = r.values part

theorem settle_eq_settledDraft (r : Rule) : r.settle = (do
    let frequency ← r.readFrequency
    r.checkInterval
    r.checkCount
    let weekStart ← r.readWeekStart
    r.checkPart .month
    let weekdays ← readChoices r.weekdays
    (ListPart.all.filter fun part => part != .month).forM r.checkPart
    r.checkEnd
    return r.settledDraft frequency weekStart weekdays) := rfl

namespace Recognizes

/-- Nothing that settling looks at, and no value that it reports, is changed by recognizing names
early. -/
theorem settle_eq (early : s.Recognizes r) : s.settle = r.settle := by
  obtain ⟨f, known, sameFrequency⟩ := early.frequency
  obtain ⟨day, start, sameStart⟩ := early.weekStart
  have frequency : s.readFrequency = r.readFrequency := by
    rw [readFrequency, readFrequency, known, sameFrequency]
    rfl
  have weekStart : s.readWeekStart = r.readWeekStart := by
    rw [readWeekStart, readWeekStart, start, sameStart]
    rfl
  have interval : s.checkInterval = r.checkInterval := by
    rw [checkInterval, checkInterval, early.interval]
  have count : s.checkCount = r.checkCount := by
    rw [checkCount, checkCount, early.count]
  have ends : s.checkEnd = r.checkEnd := by
    rw [checkEnd, checkEnd, early.ends]
  have parts : s.checkPart = r.checkPart := by
    funext part
    have months : s.months = r.months := early.numbers .month (by decide)
    cases part with
    | weekday => rfl
    | month => simp only [checkPart, ListPart.range?, months]
    | _ =>
      simp only [checkPart, ListPart.range?]
      rw [early.numbers]
      decide
  have weekdays : readChoices s.weekdays = readChoices r.weekdays :=
    Datum.readChoices_of_toOccurrence early.weekdays
  have drafts : s.settledDraft = r.settledDraft := by
    funext f day choices part
    cases part with
    | interval => exact early.interval
    | count => exact early.count
    | ends => exact early.ends
    | list part =>
      cases part with
      | weekday => rfl
      | _ => exact congrArg Datum.tuple (early.numbers _ (by decide))
    | _ => rfl
  rw [settle_eq_settledDraft, settle_eq_settledDraft, frequency, interval, count, weekStart, parts,
    weekdays, ends, drafts]

theorem toSchedule_eq (early : s.Recognizes r) : s.toSchedule = r.toSchedule := by
  rw [toSchedule, toSchedule, early.settle_eq]

theorem validate_eq (early : s.Recognizes r) (start : Datum) : s.validate start = r.validate start := by
  rw [validate, validate, early.toSchedule_eq]

end Recognizes

/-- The start of the week that is offered, or the default, is recognized. -/
theorem exists_day_of_offered {values : List (Part × Datum)} {rest : Datum → Except Fault Rule}
    (made : (if (values.any fun value => value.1 = .weekStart) = true then
        (Draft.default.setAll values .weekStart).toWeekday.map Datum.weekday >>= rest
      else pure (Draft.default.setAll values .weekStart) >>= rest) = .ok s) :
    ∃ day, (Draft.default.setAll values .weekStart).toWeekday = .ok day ∧
      rest (.weekday day) = .ok s := by
  split at made
  · obtain ⟨_, named, made⟩ := Outcome.bind_eq_ok.mp made
    obtain ⟨day, known, rfl⟩ := Outcome.map_eq_ok.mp named
    exact ⟨day, known, made⟩
  · rename_i absent
    have start := Draft.default_of_unnamed absent
    rw [start] at made ⊢
    exact ⟨.monday, rfl, made⟩

/-- The weekdays that are offered, or no weekdays, are recognized one by one. -/
theorem exists_choices_of_offered {values : List (Part × Datum)} {rest : Datum → Except Fault Rule}
    (made : (if (values.any fun value => value.1 = .list .weekday) = true then
        if (Draft.default.setAll values (.list .weekday)).truthy = true then do
          let items ← (Draft.default.setAll values (.list .weekday)).toItems
          let choices ← items.mapM Datum.toOccurrence
          let weekdays ← pure (.tuple choices)
          rest weekdays
        else do
          let items ← pure []
          let choices ← items.mapM Datum.toOccurrence
          let weekdays ← pure (.tuple choices)
          rest weekdays
      else pure (Draft.default.setAll values (.list .weekday)) >>= rest) = .ok s) :
    ∃ items choices, (Draft.default.setAll values (.list .weekday)).toItems = .ok items ∧
      items.mapM Datum.toOccurrence = .ok choices ∧ rest (.tuple choices) = .ok s := by
  split at made
  · split at made
    · obtain ⟨items, offered, made⟩ := Outcome.bind_eq_ok.mp made
      obtain ⟨choices, named, made⟩ := Outcome.bind_eq_ok.mp made
      exact ⟨items, choices, offered, named, made⟩
    · rename_i empty
      exact ⟨[], [], Datum.toItems_of_not_truthy empty, rfl, made⟩
  · rename_i absent
    have weekdays := Draft.default_of_unnamed absent
    rw [weekdays] at made ⊢
    exact ⟨[], [], rfl, rfl, made⟩

/-- What the names of options are found to mean when a rule is built from them: those that are left
out mean their defaults. -/
theorem of_build {frequency : Datum} {options : List (Text × Datum)}
    (built : build frequency options = .ok s) :
    (∀ option ∈ options, option.1 ≠ Part.frequency.name.toList) ∧
      ∃ values, Draft.partsOf? options = some values ∧ ∃ day items choices f,
        (Draft.default.setAll values .weekStart).toWeekday = .ok day ∧
        (Draft.default.setAll values (.list .weekday)).toItems = .ok items ∧
        items.mapM Datum.toOccurrence = .ok choices ∧ frequency.toFrequency = .ok f ∧
        s.IsMadeOf ((Draft.default.setAll values).setAll
          [(.weekStart, .weekday day), (.list .weekday, .tuple choices),
            (.frequency, .frequency f)]) := by
  unfold build at built
  dsimp only at built
  split at built
  · cases built
  rename_i unnamed
  split at built
  · cases built
  rename_i known
  have found : ∀ option ∈ options, ∃ part, Part.ofName? option.1 = some part := by
    intro option member
    rw [← Option.ne_none_iff_exists']
    intro missing
    refine known ?_
    rw [Bool.not_eq_true', List.isEmpty_eq_false_iff_exists_mem]
    refine ⟨option.1, List.mem_filter.mpr ⟨List.mem_map_of_mem member, ?_⟩⟩
    rw [missing]
    rfl
  obtain ⟨values, recognized⟩ := Draft.exists_partsOf? found
  rw [recognized, Option.getD_some] at built
  obtain ⟨day, start, built⟩ := exists_day_of_offered built
  obtain ⟨items, choices, offered, named, built⟩ := exists_choices_of_offered built
  obtain ⟨f, frequent, built⟩ := Outcome.bind_eq_ok.mp built
  refine ⟨fun option member same => unnamed (List.any_eq_true.mpr ⟨option, member, ?_⟩), values,
    recognized, day, items, choices, f, start, offered, named, frequent, ofDraft_ok_iff.mp built⟩
  rw [same, decide_eq_true rfl]

/-- A rule can be made of the names themselves when one can be built of what they mean. -/
theorem exists_recognizes_of_build {frequency : Datum} {options : List (Text × Datum)}
    (built : build frequency options = .ok s) :
    ∃ r, ofNamed ((Part.frequency.name.toList, frequency) :: options) = .ok r ∧ s.Recognizes r := by
  obtain ⟨unnamed, values, recognized, day, items, choices, f, start, offered, named, frequent, made⟩ :=
    of_build built
  have all : Draft.partsOf? ((Part.frequency.name.toList, frequency) :: options) =
      some ((.frequency, frequency) :: values) := by
    rw [Draft.partsOf?_eq_some_iff] at recognized ⊢
    exact .cons ⟨Part.ofName?_name .frequency, rfl⟩ recognized
  have given (part : Part) (other : part ≠ .frequency) :
      Draft.default.setAll ((.frequency, frequency) :: values) part =
        Draft.default.setAll values part :=
    Draft.setAll_congr (if_neg other) values
  have own : Draft.default.setAll ((.frequency, frequency) :: values) .frequency = frequency := by
    change (Draft.default.set .frequency frequency).setAll values .frequency = frequency
    refine (Draft.setAll_of_absent fun value member same => ?_).trans (if_pos rfl)
    obtain ⟨option, among, known, _⟩ :=
      Outcome.exists_of_mem_right (Draft.partsOf?_eq_some_iff.mp recognized) member
    rw [same] at known
    exact unnamed option among (Part.name_of_ofName? known).symm
  let r : Rule := { s with
    frequency := frequency
    weekStart := Draft.default.setAll values .weekStart
    weekdays := items }
  have late : r.IsMadeOf (Draft.default.setAll ((.frequency, frequency) :: values)) := by
    refine ⟨own.symm, ?_, ?_, (given _ (by decide)).symm, ?_, fun part => ?_⟩
    · rw [given _ (by decide)]
      exact made.interval
    · rw [given _ (by decide)]
      exact made.count
    · rw [given _ (by decide)]
      exact made.ends
    · have kept := made.values part
      rw [given (.list part) nofun]
      cases part with
      | weekday => exact offered
      | _ => exact kept
  refine ⟨r, ?_, ?_⟩
  · unfold ofNamed
    rw [all]
    exact ofDraft_ok_iff.mpr late
  · have kept : (.ok choices : Except Fault (List Datum)) = .ok s.weekdays := made.values .weekday
    exact {
      frequency := ⟨f, frequent, made.frequency⟩
      weekStart := ⟨day, start, made.weekStart⟩
      weekdays := Except.ok.inj kept ▸ named
      interval := rfl
      count := rfl
      ends := rfl
      numbers := fun part numeric => by cases part <;> first | rfl | exact absurd rfl numeric }

/-- Names that are recognized when a rule is built give the same as names that are recognized when the
rule is used: where a rule can be built of a frequency and options, one can be made of them as they
are, and both have the same schedule or are refused with the same error about the same value. So has
any start that they are validated against. -/
theorem build_agrees {frequency : Datum} {options : List (Text × Datum)} {early : Rule}
    (built : build frequency options = .ok early) :
    ∃ late, ofNamed ((Part.frequency.name.toList, frequency) :: options) = .ok late ∧
      early.toSchedule = late.toSchedule ∧ ∀ start, early.validate start = late.validate start := by
  obtain ⟨late, made, recognizes⟩ := exists_recognizes_of_build built
  exact ⟨late, made, recognizes.toSchedule_eq, recognizes.validate_eq⟩

/-- Loose names of every shape are kept in the one rule and recognized in the other. -/
theorem build_agrees_loose_names :
    let frequency := Datum.ofString " Monthly"
    let days := [.ofString "mo", .tuple [.int 2, .ofString "TUE"], .every (.ofString "friday")]
    let options := [("week_start".toList, .ofString "Sun"), ("by_weekday".toList, .list days)]
    let late : Rule := { bare frequency with weekStart := .ofString "Sun", weekdays := days }
    let early : Rule := { bare (.frequency .monthly) with
      weekStart := .weekday .sunday
      weekdays := [.every (.weekday .monday), .nth (.int 2) (.weekday .tuesday),
        .every (.ofString "friday")] }
    build frequency options = .ok early ∧
      ofNamed ((Part.frequency.name.toList, frequency) :: options) = .ok late ∧
        early.toSchedule = late.toSchedule := by
  intro frequency days options late early
  have built : build frequency options = .ok early := by rfl
  have made : ofNamed ((Part.frequency.name.toList, frequency) :: options) = .ok late := by rfl
  obtain ⟨other, same, agree, _⟩ := build_agrees built
  cases made.symm.trans same
  exact ⟨built, made, agree⟩

end Rule

end Recurrence
