import Recurrence.Proofs.Rule.Readable
import Recurrence.Proofs.Rule.Settling

namespace Recurrence

/-- A weekday choice on a weekday itself, with an integer for its ordinal. -/
def Datum.IsTypedChoice (d : Datum) : Prop :=
  (∃ day, d = .every (.weekday day)) ∨ ∃ n day, d = .nth (.int n) (.weekday day)

/-- The items that a typed rule has in a list part: weekday choices and integers. -/
def ListPart.Types (part : ListPart) (d : Datum) : Prop :=
  match part with
  | .weekday => d.IsTypedChoice
  | _ => ∃ n, d = .int n

namespace Rule

/-- All values of the rule are of the kinds that its parts are documented with.
Their ranges do not matter. -/
structure IsTyped (r : Rule) : Prop where
  frequency : ∃ f, r.frequency = .frequency f
  interval : ∃ n, r.interval = .int n
  count : r.count = .none ∨ ∃ n, r.count = .int n
  ends : r.ends = .none ∨ ∃ t, r.ends = .moment t
  weekStart : ∃ day, r.weekStart = .weekday day
  weekdays : ∀ d ∈ r.weekdays, d.IsTypedChoice
  numbers : ∀ part, part ≠ .weekday → ∀ d ∈ r.values part, ∃ n, d = .int n

theorem readChoice_of_isTypedChoice {d : Datum} (typed : d.IsTypedChoice) :
    readChoice d = .ok d := by
  rcases typed with ⟨day, rfl⟩ | ⟨n, day, rfl⟩ <;> rfl

namespace IsTyped

variable {r : Rule}

theorem types (typed : r.IsTyped) {part : ListPart} {d : Datum} (member : d ∈ r.values part) :
    part.Types d := by
  cases part with
  | weekday => exact typed.weekdays d member
  | _ => exact typed.numbers _ (by decide) d member

/-- The weekdays of a typed rule are read as they are. -/
theorem readChoices (typed : r.IsTyped) : Rule.readChoices r.weekdays = .ok r.weekdays := by
  rw [readChoices_eq, Outcome.mapM_eq_ok_iff, List.forall₂_same]
  exact fun d member => readChoice_of_isTypedChoice (typed.weekdays d member)

/-- Settling leaves the values of a typed rule as they are. -/
theorem settledDraft {f : Frequency} {day : Weekday} (frequency : r.frequency = .frequency f)
    (weekStart : r.weekStart = .weekday day) :
    r.settledDraft f day r.weekdays = r.draft := by
  funext part
  cases part with
  | frequency => exact frequency.symm
  | weekStart => exact weekStart.symm
  | list part => cases part <;> rfl
  | _ => rfl

end IsTyped

/-- What a text can give is typed. -/
theorem IsReadable.isTyped {limits : Limits} {r : Rule} (readable : r.IsReadable limits) :
    r.IsTyped where
  frequency := readable.frequency
  interval := by
    obtain ⟨n, interval, _⟩ := readable.interval
    exact ⟨n, interval⟩
  count := readable.count.imp_right fun ⟨n, count, _⟩ => ⟨n, count⟩
  ends := readable.ends
  weekStart := readable.weekStart
  weekdays d member := by
    rcases readable.items .weekday d member with every | ⟨n, day, same, _⟩
    · exact .inl every
    · exact .inr ⟨n, day, same⟩
  numbers part numeric d member := by
    have holds := readable.items part d member
    cases part with
    | weekday => exact absurd rfl numeric
    | _ =>
      obtain ⟨n, isInt, _⟩ := holds
      exact ⟨n, isInt⟩

end Rule

end Recurrence
