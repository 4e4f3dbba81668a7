import Recurrence.Proofs.Session.Caches

namespace Recurrence.Work

variable {given : Option Limits} {before after session : Session}

/-- Limits that are loaded are those of the session from then on. -/
theorem limits_of_loaded {limits : Limits}
    (loaded : (limitsOr none).outcome before = (.ok limits, after)) : after.limits = some limits := by
  change Cache.limits.read.outcome before = _ at loaded
  rw [Cache.outcome_read] at loaded
  split at loaded <;> cases loaded
  rfl

theorem outcome_limitsOr_known {limits : Limits} (known : session.limits = some limits) :
    (limitsOr none).outcome session = (.ok limits, session) :=
  @Cache.outcome_read_of_kept .limits _ _ known

/-- A session whose environment is empty loads the default limits. -/
theorem outcome_limitsOr_fresh :
    (limitsOr none).outcome {} = (.ok {}, { ({} : Session) with limits := some {} }) := rfl

/-- Limits that are loaded stay, whatever events follow. -/
theorem limitsOr_kept {limits : Limits}
    (loaded : (limitsOr given).outcome before = (.ok limits, after)) (events : List Journal.Event) :
    ((limitsOr given).outcome { after with events := events }).1 = .ok limits := by
  cases given with
  | some own =>
    cases loaded
    rfl
  | none =>
    have known := limits_of_loaded loaded
    have kept : ({ after with events := events } : Session).limits = some limits := known
    rw [outcome_limitsOr_known kept]

theorem outcome_printRule {limits : Limits} {r : Rule}
    (loaded : (limitsOr given).outcome before = (.ok limits, after)) :
    (printRule given r).outcome before = (.ok (r.print limits.endForm), after) := by
  unfold printRule
  rw [outcome_bind loaded]
  rfl

/-- A rule that was read is the rule of a text under limits that were loaded. -/
theorem of_outcome_readRule {d : Datum} {r : Rule}
    (found : (readRule given d).outcome before = (.ok r, after)) :
    ∃ limits text middle, (limitsOr given).outcome before = (.ok limits, middle) ∧
      d.asText? = some text ∧ Rule.read limits text = .ok r ∧
      after = { middle with events := .ruleRead text r :: middle.events } := by
  unfold readRule at found
  obtain ⟨limits, middle, loaded, found⟩ := of_outcome_bind found
  cases isText : d.asText? with
  | some text =>
    cases read : Rule.read limits text with
    | ok rule =>
      simp only [isText, read] at found
      cases found
      exact ⟨limits, text, middle, loaded, rfl, read, rfl⟩
    | error error =>
      simp only [isText, read] at found
      cases found
  | none =>
    simp only [isText] at found
    split at found
    · split at found <;> cases found
    · cases found

end Recurrence.Work
