import Recurrence.Proofs.Interchange.Export

namespace Recurrence

namespace Interchange

/-- The integers of a list part. -/
def numbers (form : Interchange) : ListPart → List Int
  | .setPosition => form.setPositions
  | .month => form.months
  | .monthDay => form.monthDays
  | .yearDay => form.yearDays
  | .weekNumber => form.weekNumbers
  | .weekday => []
  | .hour => form.hours
  | .minute => form.minutes
  | .second => form.seconds

/-- Whether a form has the values of a rule, and such names of its weekdays as the
export of the rule is taken in with. -/
structure Exchanges (form : Interchange) (r : Rule) : Prop where
  frequency : r.frequency = .frequency form.frequency
  interval : r.interval = .int form.interval
  count : r.count = form.count.elim .none .int
  ends : r.ends = form.ends.elim .none .moment
  weekStart : r.weekStart = .weekday form.weekStart
  numbers : ∀ part, part ≠ .weekday → r.values part = (form.numbers part).map .int
  taken : DayName.takeAll (.list (r.weekdays.map Rule.occurrenceExport)) = .ok form.weekdays
  named : (form.weekdays.mapM fun name => name.toDatum.toOccurrence) = .ok r.weekdays

namespace Exchanges

variable {form : Interchange} {r : Rule}

/-- A form that has the values of a rule gives back the rule. -/
theorem toRule (same : form.Exchanges r) : form.toRule = .ok r := by
  rw [form.toRule_eq same.named, ← same.ends, Rule.normalEnd_of_normal _ r.ends_normal]
  have lists (part : ListPart) (numeric : part ≠ .weekday) :=
    (same.numbers part numeric).symm
  refine congrArg Except.ok ?_
  obtain ⟨⟩ := r
  simp only [ruleWith, Rule.mk.injEq, true_and]
  exact ⟨same.frequency.symm, same.interval.symm, same.count.symm, same.weekStart.symm,
    lists .setPosition (by decide), lists .month (by decide), lists .monthDay (by decide),
    lists .yearDay (by decide), lists .weekNumber (by decide), lists .hour (by decide),
    lists .minute (by decide), lists .second (by decide)⟩

theorem takeEnd (same : form.Exchanges r) :
    Intake.optional Intake.moment (r.partExport .ends) = .ok form.ends := by
  have ends := same.ends
  cases known : form.ends with
  | none =>
    rw [known] at ends
    simp [Rule.partExport, ends, Intake.optional]
  | some t =>
    rw [known] at ends
    have written : t.utcText false = t.extendedText := rfl
    have read := Intake.readMoment?_extendedText (r.ends_normal t ends)
    simp [Rule.partExport, ends, Intake.optional, Intake.moment, Datum.asText?, written, read]
    rfl

/-- A rule whose values a form has is taken in as that form, if its interval and its
count are in range. -/
theorem ofRule (same : form.Exchanges r) (interval : 1 ≤ form.interval ∧ form.interval ≤ maxInterval)
    (count : ∀ n ∈ form.count, 0 ≤ n) : Interchange.ofRule r = .ok form := by
  have takenFrequency : (Intake.field r.entries Part.frequency.name fun value =>
      (Intake.text value).andThen fun t => Intake.meaning (Datum.str t).toFrequency) =
        .ok form.frequency := by
    refine Rule.field_entries .frequency ?_
    simp only [Rule.partExport, same.frequency]
    cases form.frequency <;> rfl
  have takenInterval : Intake.fieldOr r.entries Part.interval.name 1
      (Intake.intIn 1 (some maxInterval)) = .ok form.interval := by
    refine Rule.fieldOr_entries .interval (Intake.intIn_eq_ok.mpr ⟨?_, interval.1, ?_⟩)
    · simp only [Rule.partExport, same.interval]
      rfl
    · rintro most known
      cases known
      exact interval.2
  have takenCount : Intake.fieldOr r.entries Part.count.name none
      (Intake.optional (Intake.intIn 0 none)) = .ok form.count := by
    refine Rule.fieldOr_entries .count ?_
    simp only [Rule.partExport, same.count]
    cases known : form.count with
    | none => rfl
    | some n =>
      have natural : Intake.intIn 0 none (.int n) = .ok n :=
        Intake.intIn_eq_ok.mpr ⟨rfl, count n known, fun _ none => nomatch none⟩
      simp only [Option.elim_some, Intake.optional, natural]
      rfl
  have takenEnd : Intake.fieldOr r.entries Part.ends.name none (Intake.optional Intake.moment) =
      .ok form.ends := Rule.fieldOr_entries .ends same.takeEnd
  have takenWeekStart : (Intake.fieldOr r.entries Part.weekStart.name .monday fun value =>
      (Intake.text value).andThen fun t => Intake.meaning (Datum.str t).toWeekday) =
        .ok form.weekStart := by
    refine Rule.fieldOr_entries .weekStart ?_
    simp only [Rule.partExport, same.weekStart, Datum.token_weekday]
    cases form.weekStart <;> rfl
  have takenWeekdays : Intake.fieldOr r.entries ListPart.weekday.name [] DayName.takeAll =
      .ok form.weekdays := Rule.fieldOr_entries (.list .weekday) same.taken
  have takenNumbers (part : ListPart) (numeric : part ≠ .weekday) :=
    Rule.takeNumbers_entries numeric (same.numbers part numeric)
  change Interchange.take (.dict r.entries) = _
  unfold Interchange.take
  refine Intake.andThen_eq_ok.mpr ⟨r.entries, rfl, ?_⟩
  rw [takenFrequency, takenInterval, takenCount, takenEnd, takenWeekStart, takenWeekdays,
    takenNumbers .setPosition (by decide), takenNumbers .month (by decide),
    takenNumbers .monthDay (by decide), takenNumbers .yearDay (by decide),
    takenNumbers .weekNumber (by decide), takenNumbers .hour (by decide),
    takenNumbers .minute (by decide), takenNumbers .second (by decide), r.onlyKnown_entries]
  rfl

end Exchanges

end Interchange

namespace Rule

variable {r : Rule}

theorem IsTyped.exists_integers (typed : r.IsTyped) (part : ListPart) (numeric : part ≠ .weekday) :
    ∃ ns : List Int, r.values part = ns.map .int := by
  have integers := typed.numbers part numeric
  generalize r.values part = values at integers
  induction values with
  | nil => exact ⟨[], rfl⟩
  | cons d values ih =>
    obtain ⟨⟨n, rfl⟩, later⟩ := List.forall_mem_cons.mp integers
    obtain ⟨ns, rfl⟩ := ih later
    exact ⟨n :: ns, rfl⟩

/-- Some form has the values of a typed rule. -/
theorem IsTyped.exists_exchanges (typed : r.IsTyped) :
    ∃ form : Interchange, form.Exchanges r := by
  obtain ⟨f, frequency⟩ := typed.frequency
  obtain ⟨n, interval⟩ := typed.interval
  obtain ⟨day, weekStart⟩ := typed.weekStart
  obtain ⟨m, count⟩ : ∃ m : Option Int, r.count = m.elim .none .int := by
    rcases typed.count with missing | ⟨m, isCount⟩
    · exact ⟨none, missing⟩
    · exact ⟨some m, isCount⟩
  obtain ⟨last, ends⟩ : ∃ last : Option Timestamp, r.ends = last.elim .none .moment := by
    rcases typed.ends with missing | ⟨t, isMoment⟩
    · exact ⟨none, missing⟩
    · exact ⟨some t, isMoment⟩
  obtain ⟨names, taken, named⟩ := DayName.exists_takeAll_export typed
  obtain ⟨setPositions, sameSetPositions⟩ := typed.exists_integers .setPosition (by decide)
  obtain ⟨months, sameMonths⟩ := typed.exists_integers .month (by decide)
  obtain ⟨monthDays, sameMonthDays⟩ := typed.exists_integers .monthDay (by decide)
  obtain ⟨yearDays, sameYearDays⟩ := typed.exists_integers .yearDay (by decide)
  obtain ⟨weekNumbers, sameWeekNumbers⟩ := typed.exists_integers .weekNumber (by decide)
  obtain ⟨hours, sameHours⟩ := typed.exists_integers .hour (by decide)
  obtain ⟨minutes, sameMinutes⟩ := typed.exists_integers .minute (by decide)
  obtain ⟨seconds, sameSeconds⟩ := typed.exists_integers .second (by decide)
  refine ⟨⟨f, n, m, last, day, setPositions, months, monthDays, yearDays, weekNumbers, names, hours,
    minutes, seconds⟩, frequency, interval, count, ends, weekStart, fun part numeric => ?_, taken, named⟩
  cases part with
  | weekday => exact absurd rfl numeric
  | _ => assumption

/-- A typed rule has an exchanged form, if its interval and its count are in range,
and the form gives back the rule. -/
theorem IsTyped.exists_ofRule (typed : r.IsTyped)
    (interval : ∀ n, r.interval = .int n → 1 ≤ n ∧ n ≤ Interchange.maxInterval)
    (count : ∀ n, r.count = .int n → 0 ≤ n) :
    ∃ form, Interchange.ofRule r = .ok form ∧ form.toRule = .ok r := by
  obtain ⟨form, same⟩ := typed.exists_exchanges
  refine ⟨form, same.ofRule (interval _ same.interval) (fun n known => count n ?_), same.toRule⟩
  rw [same.count, known]
  rfl

end Rule

end Recurrence
