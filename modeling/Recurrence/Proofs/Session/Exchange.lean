import Recurrence.Proofs.Interchange.Taken
import Recurrence.Proofs.Session.Loading
import Recurrence.Proofs.Session.Reading
import Recurrence.Session.Boundary

namespace Recurrence.Work

variable {before middle after session : Session}

/-- A rule that a text gives has an exchanged form that gives it back. -/
theorem exists_ofRule_of_read {limits : Limits} {text : Text} {r : Rule}
    (read : Rule.read limits text = .ok r) :
    ∃ form, Interchange.ofRule r = .ok form ∧ form.toRule = .ok r := by
  have readable := Rule.isReadable_of_read read
  obtain ⟨n, interval, positive, bound⟩ := readable.interval
  refine readable.isTyped.exists_ofRule (fun m same => ?_) fun m same => ?_
  · cases interval.symm.trans same
    have most : Rule.maxInterval = 65535 := rfl
    have limit : Interchange.maxInterval = 65535 := rfl
    omega
  · rcases readable.count with missing | ⟨k, count, _⟩
    · cases missing.symm.trans same
    · cases count.symm.trans same
      exact Int.natCast_nonneg k

/-- The text of the exchanged form of a rule that was read is the text of the rule. -/
theorem outcome_interchangeText_of_readRule {d : Datum} {r : Rule}
    (found : (readRule none d).outcome before = (.ok r, after)) :
    ∃ printed, (printRule none r).outcome after = (.ok printed, after) ∧
      (interchangeOf d >>= interchangeText).outcome before = (.ok printed, after) := by
  obtain ⟨limits, text, middle, loaded, _, read, rfl⟩ := of_outcome_readRule found
  obtain ⟨form, exported, given⟩ := exists_ofRule_of_read read
  have kept := limits_of_loaded loaded
  have known : (limitsOr none).outcome { middle with events := .ruleRead text r :: middle.events } =
      (.ok limits, _) := outcome_limitsOr_known kept
  refine ⟨_, outcome_printRule known, ?_⟩
  have formed : (interchangeOf d).outcome before =
      (.ok form, { middle with events := .ruleRead text r :: middle.events }) := by
    unfold interchangeOf
    rw [outcome_bind found, exported]
    rfl
  rw [outcome_bind formed]
  unfold interchangeText
  rw [given, outcome_bind (outcome_lift _)]
  exact outcome_printRule known

/-- The exchanged form loses nothing: a typed rule whose interval and count are in
range has one, which gives back the rule; the form of a text writes what the rule of
the text does; and the rule that any form gives, if it gives one, has a form that
gives it again. -/
theorem exchange_lossless :
    (∀ r : Rule, r.IsTyped → (∃ n : Int, r.interval = .int n ∧ 1 ≤ n ∧ n ≤ 65535) →
      (r.count = .none ∨ ∃ n : Int, r.count = .int n ∧ 0 ≤ n) →
      ∃ form, Interchange.ofRule r = .ok form ∧ form.toRule = .ok r) ∧
    (∀ (d : Datum) (before after : Session) (r : Rule),
      (readRule none d).outcome before = (.ok r, after) →
      ∃ printed, (printRule none r).outcome after = (.ok printed, after) ∧
        (interchangeOf d >>= interchangeText).outcome before = (.ok printed, after)) ∧
    ∀ (d : Datum) (form : Interchange) (r : Rule), Interchange.take d = .ok form →
      form.toRule = .ok r →
      ∃ again, Interchange.ofRule r = .ok again ∧ again.toRule = .ok r := by
  refine ⟨fun r typed interval count => ?_, fun d before after r => outcome_interchangeText_of_readRule,
    fun d form r => Interchange.exists_ofRule_of_toRule⟩
  obtain ⟨n, isInt, range⟩ := interval
  refine typed.exists_ofRule (fun m same => ?_) fun m same => ?_
  · cases isInt.symm.trans same
    exact range
  · rcases count with missing | ⟨k, isCount, natural⟩
    · cases missing.symm.trans same
    · cases isCount.symm.trans same
      exact natural

/-- A rule with great and negative numbers and a fraction of a second at its end, a
loosely written text, and plain values with names of days, an end on another clock
and numbers as texts. -/
theorem exchange_lossless_loose :
    (let r := { Rule.ofSettings [.frequency .monthly, .interval 65535, .weekStart .sunday,
          .ends ⟨63876411000, 125000, some 0, by decide, by decide⟩ (by decide),
          .list .setPosition [.int (-100000000000000000000), .int 0],
          .list .weekday [.every (.weekday .tuesday), .nth (.int (-7000)) (.weekday .friday)]] with
        count := .int 0 }
      ∃ form, Interchange.ofRule r = .ok form ∧ form.toRule = .ok r) ∧
    (let text := "RRULE: byday=+1mo, -002Fr ;freq=monthly;UNTIL=2025-03-01T08:30:00.125+01:00".toList
      ∃ r after, (readRule none (.str text)).outcome {} = (.ok r, after) ∧
        ∃ printed, (printRule none r).outcome after = (.ok printed, after) ∧
          (interchangeOf (.str text) >>= interchangeText).outcome {} = (.ok printed, after)) ∧
    (let d := Datum.dict [("frequency".toList, .ofString " weekly"), ("interval".toList, .ofString "2"),
        ("until".toList, .ofString "2025-03-01T08:30:00.1255+01:00"),
        ("by_weekday".toList, .list [.ofString "mon", .list [.int (-2), .ofString "Friday"]])]
      ∃ form r, Interchange.take d = .ok form ∧ form.toRule = .ok r ∧
        ∃ again, Interchange.ofRule r = .ok again ∧ again.toRule = .ok r) := by
  refine ⟨?_, ?_, ?_⟩
  · intro r
    have typed : r.IsTyped := by
      refine ⟨⟨_, rfl⟩, ⟨_, rfl⟩, .inr ⟨0, rfl⟩, .inr ⟨_, rfl⟩, ⟨_, rfl⟩, fun d member => ?_,
        fun part numeric d member => ?_⟩
      · rcases List.mem_cons.mp member with rfl | member
        · exact .inl ⟨.tuesday, rfl⟩
        · rw [List.mem_singleton.mp member]
          exact .inr ⟨-7000, .friday, rfl⟩
      · cases part with
        | setPosition =>
          rcases List.mem_cons.mp member with rfl | member
          · exact ⟨_, rfl⟩
          · rw [List.mem_singleton.mp member]
            exact ⟨0, rfl⟩
        | weekday => exact absurd rfl numeric
        | _ => cases member
    exact exchange_lossless.1 r typed ⟨65535, rfl, by decide, by decide⟩ (.inr ⟨0, rfl, by decide⟩)
  · intro text
    obtain ⟨r, read⟩ : ∃ r, Rule.read {} text = .ok r := ⟨_, rfl⟩
    have found := outcome_readRule_ok outcome_limitsOr_fresh read
    exact ⟨r, _, found, exchange_lossless.2.1 _ _ _ r found⟩
  · intro d
    obtain ⟨form, r, taken, given⟩ : ∃ form r, Interchange.take d = .ok form ∧ form.toRule = .ok r :=
      ⟨_, _, rfl, rfl⟩
    exact ⟨form, r, taken, given, exchange_lossless.2.2 d form r taken given⟩

/-- A form that was taken in gives a rule, and in a session whose limits load a text,
just when its end, if there is one, lies within the years in UTC. Otherwise both fail
with an overflow, before the limits are looked at. -/
theorem converts_iff {d : Datum} {form : Interchange} (taken : Interchange.take d = .ok form) :
    ((∃ r, form.toRule = .ok r) ↔ ∀ t ∈ form.ends, t.IsWithinYears) ∧
    (∀ fault, form.toRule = .error fault → fault = .overflow) ∧
    ∀ (before after : Session) (limits : Limits),
      (limitsOr none).outcome before = (.ok limits, after) →
      ((∃ printed, (interchangeText form).outcome before = (.ok printed, after)) ↔
        ∀ t ∈ form.ends, t.IsWithinYears) ∧
      ((∃ t ∈ form.ends, ¬t.IsWithinYears) →
        (interchangeText form).outcome before = (.error (.fault .overflow), before)) := by
  rcases Interchange.toRule_of_isTaken (Interchange.isTaken_of_take taken) with
    ⟨⟨r, given⟩, within⟩ | ⟨failed, t, known, outside⟩
  · refine ⟨iff_of_true ⟨r, given⟩ within, fun fault failed => ?_, fun before after limits loaded => ?_⟩
    · cases given.symm.trans failed
    · have printed : (interchangeText form).outcome before = (.ok (r.print limits.endForm), after) := by
        unfold interchangeText
        rw [given, outcome_bind (outcome_lift _)]
        exact outcome_printRule loaded
      exact ⟨iff_of_true ⟨_, printed⟩ within, fun ⟨t, known, outside⟩ => absurd (within t known) outside⟩
  · have outsideYears : ¬∀ t ∈ form.ends, t.IsWithinYears := fun within => outside (within t known)
    refine ⟨iff_of_false (fun ⟨r, given⟩ => ?_) outsideYears, fun fault other => ?_,
      fun before after limits _ => ?_⟩
    · cases failed.symm.trans given
    · cases failed.symm.trans other
      rfl
    · have stopped : (interchangeText form).outcome before = (.error (.fault .overflow), before) := by
        unfold interchangeText
        rw [failed]
        rfl
      refine ⟨iff_of_false (fun ⟨printed, made⟩ => ?_) outsideYears, fun _ => stopped⟩
      cases stopped.symm.trans made

/-- One o'clock in the morning of the first day of all is still the day before in
UTC: the form with that end is taken in, but does not give a rule. -/
theorem not_converts_firstHour :
    let d := Datum.dict [("frequency".toList, .ofString "DAILY"),
      ("until".toList, .ofString "0001-01-01T00:00:00+01:00")]
    ∃ form, Interchange.take d = .ok form ∧ (¬∃ r, form.toRule = .ok r) ∧
      form.toRule = .error .overflow ∧
      (interchangeText form).outcome {} = (.error (.fault .overflow), {}) := by
  intro d
  obtain ⟨form, taken, ends⟩ : ∃ form, Interchange.take d = .ok form ∧
      form.ends = some ⟨0, 0, some 3600, by decide, by decide⟩ := ⟨_, rfl, rfl⟩
  obtain ⟨gives, faults, prints⟩ := converts_iff taken
  have outside : ∃ t ∈ form.ends, ¬t.IsWithinYears := by
    refine ⟨_, ends, fun within => ?_⟩
    exact absurd within.1 (by decide)
  have none : ¬∃ r, form.toRule = .ok r := fun given =>
    outside.elim fun t known => known.2 (gives.mp given t known.1)
  cases failed : form.toRule with
  | ok r => exact absurd ⟨r, failed⟩ none
  | error fault =>
    obtain rfl := faults fault failed
    exact ⟨form, taken, none, failed, (prints _ _ _ outcome_limitsOr_fresh).2 outside⟩

end Recurrence.Work
