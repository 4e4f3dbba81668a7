import Recurrence.Proofs.Rule.Refusal
import Recurrence.Proofs.Session.Resolution

namespace Recurrence

theorem ReadError.parseError_mem_kinds (e : ReadError) : "ParseError" ∈ e.problem.kinds := by
  cases e <;> exact List.mem_append_right _ (List.mem_cons_self ..)

namespace Work

theorem outcome_readRule_ok {given : Option Limits} {limits : Limits} {before after : Session}
    (loaded : (limitsOr given).outcome before = (.ok limits, after)) {text : Text} {r : Rule}
    (read : Rule.read limits text = .ok r) :
    (readRule given (.str text)).outcome before =
      (.ok r, { after with events := .ruleRead text r :: after.events }) := by
  unfold readRule
  rw [outcome_bind loaded]
  simp only [Datum.asText?, read]
  rfl

theorem outcome_readRule_error {given : Option Limits} {limits : Limits} {before after : Session}
    (loaded : (limitsOr given).outcome before = (.ok limits, after)) {text : Text} {e : ReadError}
    (read : Rule.read limits text = .error e) :
    (readRule given (.str text)).outcome before =
      (.error (.reading e), { after with events := .ruleNotRead e :: after.events }) := by
  unfold readRule
  rw [outcome_bind loaded]
  simp only [Datum.asText?, read]
  rfl

/-- Reading a text gives a rule just when the text is in the grammar, and otherwise
fails with the one parse error that the grammar determines, and in no other way. -/
theorem readRule_text (limits : Limits) (text : Text) (session : Session) :
    ((∃ r, ((readRule (some limits) (.str text)).outcome session).1 = .ok r) ↔
      Rule.IsRuleText limits text) ∧
    ∀ failure, ((readRule (some limits) (.str text)).outcome session).1 = .error failure ↔
      ∃ e : ReadError, failure = .reading e ∧ "ParseError" ∈ e.problem.kinds ∧
        Rule.Refuses limits text e := by
  have loaded : (limitsOr (some limits)).outcome session = (.ok limits, session) := rfl
  simp only [← Rule.read_ok_iff, ← Rule.read_error_iff]
  cases read : Rule.read limits text with
  | ok r =>
    rw [outcome_readRule_ok loaded read]
    refine ⟨iff_of_true ⟨r, rfl⟩ ⟨r, rfl⟩, fun failure => ?_⟩
    refine iff_of_false (fun failed => nomatch failed) ?_
    rintro ⟨_, _, _, failed⟩
    cases failed
  | error e =>
    rw [outcome_readRule_error loaded read]
    constructor
    · exact iff_of_false (fun ⟨_, made⟩ => nomatch made) fun ⟨_, made⟩ => nomatch made
    · intro failure
      constructor
      · intro failed
        cases failed
        exact ⟨e, rfl, e.parseError_mem_kinds, rfl⟩
      · rintro ⟨other, rfl, _, same⟩
        cases same
        rfl

end Work

end Recurrence
