import Recurrence.Proofs.Interchange.RoundTrip

namespace Recurrence

namespace DayName

/-- What a name of a day means is a weekday choice on a weekday itself. -/
theorem isTypedChoice_of_toOccurrence {name : DayName} {d : Datum}
    (named : name.toDatum.toOccurrence = .ok d) : d.IsTypedChoice := by
  cases name with
  | every t =>
    obtain ⟨day, _, made⟩ := Outcome.bind_eq_ok.mp
      (show ((Datum.str t).toWeekday >>= fun day => .ok (.every (.weekday day))) = .ok d from named)
    cases made
    exact .inl ⟨day, rfl⟩
  | nth n t =>
    obtain ⟨day, _, made⟩ := Outcome.bind_eq_ok.mp
      (show ((Datum.str t).toWeekday >>= fun day => .ok (.nth (.int n) (.weekday day))) = .ok d
        from named)
    cases made
    exact .inr ⟨n, day, rfl⟩

end DayName

namespace Interchange

/-- What the intake makes sure of: the ranges of the interval and the count, and that
every name of a day means one. -/
structure IsTaken (form : Interchange) : Prop where
  interval : 1 ≤ form.interval ∧ form.interval ≤ maxInterval
  count : ∀ n ∈ form.count, 0 ≤ n
  weekdays : ∃ choices, (form.weekdays.mapM fun name => name.toDatum.toOccurrence) = .ok choices

theorem isTaken_of_take {d : Datum} {form : Interchange} (taken : take d = .ok form) :
    form.IsTaken := by
  unfold take at taken
  obtain ⟨entries, _, taken⟩ := Intake.andThen_eq_ok.mp taken
  obtain ⟨_, _, taken, _, made⟩ := Intake.both_eq_ok.mp taken
  obtain ⟨_, _, taken, _, made⟩ := Intake.take_eq_ok.mp taken
  obtain ⟨_, _, taken, _, made⟩ := Intake.take_eq_ok.mp taken
  obtain ⟨_, _, taken, _, made⟩ := Intake.take_eq_ok.mp taken
  obtain ⟨_, names, taken, takenNames, made⟩ := Intake.take_eq_ok.mp taken
  obtain ⟨_, _, taken, _, made⟩ := Intake.take_eq_ok.mp taken
  obtain ⟨_, _, taken, _, made⟩ := Intake.take_eq_ok.mp taken
  obtain ⟨_, _, taken, _, made⟩ := Intake.take_eq_ok.mp taken
  obtain ⟨_, _, taken, _, made⟩ := Intake.take_eq_ok.mp taken
  obtain ⟨_, _, taken, _, made⟩ := Intake.take_eq_ok.mp taken
  obtain ⟨_, _, taken, _, made⟩ := Intake.take_eq_ok.mp taken
  obtain ⟨_, _, taken, _, made⟩ := Intake.take_eq_ok.mp taken
  obtain ⟨_, count, taken, takenCount, made⟩ := Intake.take_eq_ok.mp taken
  obtain ⟨_, interval, taken, takenInterval, made⟩ := Intake.take_eq_ok.mp taken
  obtain ⟨_, _, taken, _, made⟩ := Intake.take_eq_ok.mp taken
  cases taken
  have intervalRange : 1 ≤ interval ∧ interval ≤ maxInterval := by
    rcases Intake.fieldOr_eq_ok.mp takenInterval with ⟨_, rfl⟩ | ⟨_, _, read⟩
    · decide
    · obtain ⟨_, above, below⟩ := Intake.intIn_eq_ok.mp read
      exact ⟨above, below maxInterval rfl⟩
  have countRange : ∀ n ∈ count, 0 ≤ n := by
    rintro n rfl
    rcases Intake.fieldOr_eq_ok.mp takenCount with ⟨_, same⟩ | ⟨_, _, read⟩
    · cases same
    · exact (Intake.intIn_eq_ok.mp (Intake.optional_eq_some read)).2.1
  have named : ∃ choices, (names.mapM fun name => name.toDatum.toOccurrence) = .ok choices := by
    rcases Intake.fieldOr_eq_ok.mp takenNames with ⟨_, rfl⟩ | ⟨_, _, read⟩
    · exact ⟨[], rfl⟩
    · obtain ⟨given, _, known⟩ := Intake.andThen_eq_ok.mp read
      obtain ⟨choices, meant, same⟩ := Outcome.map_eq_ok.mp known
      cases same
      exact ⟨choices, Intake.meaning_eq_ok.mp meant⟩
  subst_vars
  exact ⟨intervalRange, countRange, named⟩

/-- A form that was taken in fails to give a rule only when UTC is outside of the years
at its end. -/
theorem toRule_of_isTaken {form : Interchange} (taken : form.IsTaken) :
    (∃ r, form.toRule = .ok r) ∧ (∀ t ∈ form.ends, t.IsWithinYears) ∨
      form.toRule = .error .overflow ∧ ∃ t ∈ form.ends, ¬t.IsWithinYears := by
  obtain ⟨choices, named⟩ := taken.weekdays
  rw [form.toRule_eq named]
  cases form.ends with
  | none => exact .inl ⟨⟨_, rfl⟩, fun t known => nomatch known⟩
  | some t =>
    rcases Rule.normalEnd_moment t with ⟨u, normal, found, made⟩ | ⟨missing, failed⟩
    · refine .inl ⟨⟨_, Outcome.map_eq_ok.mpr ⟨_, made, rfl⟩⟩, fun other known => ?_⟩
      cases known
      exact Timestamp.exists_normalize?_iff.mp ⟨u, found⟩
    · refine .inr ⟨congrArg (Except.map _) failed, t, rfl, fun within => ?_⟩
      obtain ⟨u, found⟩ := Timestamp.exists_normalize?_iff.mpr within
      cases missing.symm.trans found

/-- The rule of a form is typed, with the interval and the count of the form. -/
theorem of_toRule {form : Interchange} {r : Rule} (given : form.toRule = .ok r) :
    r.IsTyped ∧ r.interval = .int form.interval ∧ r.count = form.count.elim .none .int := by
  rw [toRule_eq_ofDraft] at given
  obtain ⟨choices, named, given⟩ := Outcome.bind_eq_ok.mp given
  rw [ofDraft_settledDraft] at given
  obtain ⟨ends, kept, rfl⟩ := Outcome.map_eq_ok.mp given
  refine ⟨⟨⟨_, rfl⟩, ⟨_, rfl⟩, ?_, ?_, ⟨_, rfl⟩, fun d member => ?_, fun part numeric d member => ?_⟩,
    rfl, rfl⟩
  · have known (count : Option Int) : count.elim Datum.none .int = .none ∨
        ∃ n, count.elim Datum.none .int = .int n := by
      cases count with
      | none => exact .inl rfl
      | some n => exact .inr ⟨n, rfl⟩
    exact known form.count
  · change ends.1 = .none ∨ ∃ t, ends.1 = .moment t
    cases known : form.ends with
    | none =>
      rw [known] at kept
      cases kept
      exact .inl rfl
    | some t =>
      rw [known] at kept
      rcases Rule.normalEnd_moment t with ⟨u, normal, _, made⟩ | ⟨_, failed⟩
      · cases made.symm.trans kept
        exact .inr ⟨u, rfl⟩
      · cases failed.symm.trans kept
  · obtain ⟨name, _, meant⟩ := Outcome.mem_mapM named member
    exact DayName.isTypedChoice_of_toOccurrence meant
  · have integers (ns : List Int) (among : d ∈ ns.map Datum.int) : ∃ n, d = .int n := by
      obtain ⟨n, _, rfl⟩ := List.mem_map.mp among
      exact ⟨n, rfl⟩
    cases part with
    | weekday => exact absurd rfl numeric
    | _ => exact integers _ member

/-- The exchanged form of a rule that a form gives back gives it back again. -/
theorem exists_ofRule_of_toRule {d : Datum} {form : Interchange} {r : Rule}
    (taken : take d = .ok form) (given : form.toRule = .ok r) :
    ∃ again, ofRule r = .ok again ∧ again.toRule = .ok r := by
  have kept := isTaken_of_take taken
  obtain ⟨typed, interval, count⟩ := of_toRule given
  refine typed.exists_ofRule (fun n same => ?_) fun n same => ?_
  · cases interval.symm.trans same
    exact kept.interval
  · refine kept.count n ?_
    rw [count] at same
    cases known : form.count with
    | none =>
      rw [known] at same
      cases same
    | some m =>
      rw [known] at same
      cases same
      rfl

end Interchange

end Recurrence
