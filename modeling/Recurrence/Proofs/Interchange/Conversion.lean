import Recurrence.Interchange
import Recurrence.Proofs.Outcome

namespace Recurrence

theorem Datum.toItems_list (items : List Datum) : (Datum.list items).toItems = .ok items := by
  cases items <;> rfl

/-- A moment for the end is kept in UTC, unless UTC is then outside of the years. -/
theorem Rule.normalEnd_moment (t : Timestamp) :
    (∃ u normal, t.normalize? = some u ∧ normalEnd (.moment t) = .ok ⟨.moment u, normal⟩) ∨
      t.normalize? = none ∧ normalEnd (.moment t) = .error .overflow := by
  simp only [normalEnd]
  split
  · rename_i u found
    have normal : ∀ v, Datum.moment u = .moment v → v.isNormal := by
      intro v same
      cases same
      exact Timestamp.normalize?_isNormal found
    exact .inl ⟨u, normal, found, rfl⟩
  · rename_i missing
    exact .inr ⟨missing, rfl⟩

namespace Interchange

/-- The rule of an exchanged form whose weekdays mean the choices and whose end is
brought into the form of rules. -/
def ruleWith (form : Interchange) (choices : List Datum)
    (ends : { e : Datum // ∀ t, e = .moment t → t.isNormal }) : Rule where
  frequency := .frequency form.frequency
  interval := .int form.interval
  count := form.count.elim .none .int
  ends := ends.1
  weekStart := .weekday form.weekStart
  setPositions := form.setPositions.map .int
  months := form.months.map .int
  monthDays := form.monthDays.map .int
  yearDays := form.yearDays.map .int
  weekNumbers := form.weekNumbers.map .int
  weekdays := choices
  hours := form.hours.map .int
  minutes := form.minutes.map .int
  seconds := form.seconds.map .int
  ends_normal := ends.2

/-- The values that a form offers for its parts, with some of them settled. -/
def settledDraft (form : Interchange) (choices : List Datum) : Draft :=
  (Draft.default.setAll ((Draft.partsOf? form.options).getD [])).setAll
    [(.weekStart, .weekday form.weekStart), (.list .weekday, .tuple choices),
      (.frequency, .frequency form.frequency)]

/-- Only the weekdays of a form can fail to be recognized. -/
theorem toRule_eq_ofDraft (form : Interchange) :
    form.toRule = (form.weekdays.mapM fun name => name.toDatum.toOccurrence) >>= fun choices =>
      Rule.ofDraft (form.settledDraft choices) := by
  have label : (Datum.str form.frequency.label).toFrequency = .ok form.frequency := by
    cases form.frequency <;> rfl
  have code : (Datum.str form.weekStart.code).toWeekday = .ok form.weekStart := by
    cases form.weekStart <;> rfl
  have noFrequency :
      (form.options.any fun option => option.1 = Part.frequency.name.toList) = false := rfl
  have allKnown :
      ((form.options.map Prod.fst).filter fun name => (Part.ofName? name).isNone) = [] := rfl
  let given := Draft.default.setAll ((Draft.partsOf? form.options).getD [])
  let names := form.weekdays.map DayName.toDatum
  have begun : given .weekStart = .str form.weekStart.code := rfl
  have items (rest : List Datum → Except Fault Rule) :
      (if (Datum.list names).truthy = true then (Datum.list names).toItems >>= rest
        else pure [] >>= rest) = rest names := by
    cases names <;> rfl
  have named : names.mapM Datum.toOccurrence =
      form.weekdays.mapM fun name => name.toDatum.toOccurrence := List.mapM_map ..
  unfold toRule Rule.build
  rw [noFrequency, allKnown, label]
  change (given .weekStart).toWeekday.map Datum.weekday >>= _ = _
  rw [begun, code]
  refine (items _).trans ?_
  change names.mapM Datum.toOccurrence >>= _ = _
  rw [named]
  rfl

theorem ofDraft_settledDraft (form : Interchange) (choices : List Datum) :
    Rule.ofDraft (form.settledDraft choices) =
      (Rule.normalEnd (form.ends.elim .none .moment)).map (form.ruleWith choices) := by
  have lists (part : ListPart) : (form.settledDraft choices (.list part)).toItems =
      .ok ((form.ruleWith choices ⟨.none, Rule.none_normal⟩).values part) := by
    cases part with
    | weekday => rfl
    | _ => exact Datum.toItems_list _
  have ends : form.settledDraft choices .ends = form.ends.elim .none .moment := rfl
  simp only [Rule.ofDraft, lists, ends]
  cases Rule.normalEnd (form.ends.elim .none .moment) <;> rfl

/-- What a form becomes depends on the meaning of its weekdays and on its end alone. -/
theorem toRule_eq (form : Interchange) {choices : List Datum}
    (named : (form.weekdays.mapM fun name => name.toDatum.toOccurrence) = .ok choices) :
    form.toRule = (Rule.normalEnd (form.ends.elim .none .moment)).map (form.ruleWith choices) := by
  rw [toRule_eq_ofDraft, named]
  exact form.ofDraft_settledDraft choices

end Interchange

end Recurrence
