import Recurrence.Proofs.Rule.Building
import Recurrence.Proofs.Rule.Segments
import Recurrence.Proofs.Session.Loading
import Recurrence.Session.Boundary

namespace Recurrence

namespace Rule

/-- A way to make a rule from outside: of named values, of a frequency and options, from a text,
or of the exchanged form of a rule, which may itself come from a text. -/
inductive Creation where
  | construct (named : Entries)
  | build (frequency : Datum) (options : Entries)
  | read (given : Option Limits) (d : Datum)
  | takeIn (d : Datum)
  | takeText (d : Datum)

namespace Creation

/-- Makes the rule. -/
def make : Creation → Work Rule
  | construct named => Work.lift Failure.fault (ofNamed named)
  | build frequency options => Work.lift Failure.fault (Rule.build frequency options)
  | read given d => Work.readRule given d
  | takeIn d => do
    let form ← Work.lift Failure.intake (Interchange.take d)
    Work.lift Failure.fault form.toRule
  | takeText d => do
    let form ← Work.interchangeOf d
    Work.lift Failure.fault form.toRule

/-- The values that a creation offers for the parts of its rule, where later ones stand for
earlier ones: names as they are given, or what they were found to mean. -/
inductive Offers : Creation → List (Part × Datum) → Prop
  | construct {named values} (recognized : Draft.partsOf? named = some values) :
      Offers (.construct named) values
  | build {frequency options values day items choices f}
      (recognized : Draft.partsOf? options = some values)
      (start : (Draft.default.setAll values .weekStart).toWeekday = .ok day)
      (offered : (Draft.default.setAll values (.list .weekday)).toItems = .ok items)
      (named : items.mapM Datum.toOccurrence = .ok choices)
      (frequent : frequency.toFrequency = .ok f) :
      Offers (.build frequency options) (values ++ [(.weekStart, .weekday day),
        (.list .weekday, .tuple choices), (.frequency, .frequency f)])
  | read {given d text limits entries settings} (isText : d.asText? = some text)
      (told : ∀ known, given = some known → limits = known)
      (divided : readSegments [] (Text.split ';' (body limits text)) = .ok entries)
      (understood : readValues limits entries = .ok settings) :
      Offers (.read given d) (settings.map fun setting => (setting.part, setting.value))
  | takeIn {d form values} (taken : Interchange.take d = .ok form)
      (built : Offers (.build (.str form.frequency.label) form.options) values) :
      Offers (.takeIn d) values
  | takeText {d offered r values} (read : Offers (.read none d) offered)
      (made : ofDraft (Draft.default.setAll offered) = .ok r)
      (taken : Offers (.takeIn (.dict r.entries)) values) : Offers (.takeText d) values

variable {r : Rule} {before after : Session}

theorem exists_offers_of_ofNamed {named : Entries} (made : ofNamed named = .ok r) :
    ∃ values, Offers (.construct named) values ∧
      ofDraft (Draft.default.setAll values) = .ok r := by
  unfold ofNamed at made
  split at made
  · cases made
  rename_i values recognized
  split at made
  · exact ⟨values, .construct recognized, made⟩
  · cases made

theorem exists_offers_of_build {frequency : Datum} {options : Entries}
    (built : Rule.build frequency options = .ok r) :
    ∃ values, Offers (.build frequency options) values ∧
      ofDraft (Draft.default.setAll values) = .ok r := by
  obtain ⟨_, values, recognized, day, items, choices, f, start, offered, named, frequent, made⟩ :=
    of_build built
  refine ⟨_, .build recognized start offered named frequent, ofDraft_ok_iff.mpr ?_⟩
  have whole (more : List (Part × Datum)) : Draft.default.setAll (values ++ more) =
      (Draft.default.setAll values).setAll more := List.foldl_append
  rw [whole]
  exact made

theorem exists_offers_of_readRule {given : Option Limits} {d : Datum}
    (found : (Work.readRule given d).outcome before = (.ok r, after)) :
    ∃ values, Offers (.read given d) values ∧ ofDraft (Draft.default.setAll values) = .ok r := by
  obtain ⟨limits, text, _, loaded, isText, read, _⟩ := Work.of_outcome_readRule found
  obtain ⟨entries, settings, divided, _, understood, rfl⟩ := of_read read
  have told (known : Limits) (same : given = some known) : limits = known := by
    subst same
    cases loaded
    rfl
  refine ⟨_, .read isText told divided understood, ?_⟩
  rw [← draft_ofSettings, ofDraft_draft]

theorem exists_offers_of_take {d : Datum} {form : Interchange}
    (taken : Interchange.take d = .ok form) (made : form.toRule = .ok r) :
    ∃ values, Offers (.takeIn d) values ∧ ofDraft (Draft.default.setAll values) = .ok r := by
  obtain ⟨values, built, made⟩ := exists_offers_of_build made
  exact ⟨values, .takeIn taken built, made⟩

/-- However a rule is made, the constructor has seen what is offered for its parts. -/
theorem exists_offers {creation : Creation}
    (made : creation.make.outcome before = (.ok r, after)) :
    ∃ values, creation.Offers values ∧ ofDraft (Draft.default.setAll values) = .ok r := by
  cases creation with
  | construct named => exact exists_offers_of_ofNamed (Work.of_outcome_lift made).1
  | build frequency options => exact exists_offers_of_build (Work.of_outcome_lift made).1
  | read given d => exact exists_offers_of_readRule made
  | takeIn d =>
    obtain ⟨form, _, taken, made⟩ := Work.of_outcome_bind made
    exact exists_offers_of_take (Work.of_outcome_lift taken).1 (Work.of_outcome_lift made).1
  | takeText d =>
    obtain ⟨form, _, exported, made⟩ := Work.of_outcome_bind made
    obtain ⟨s, _, found, exported⟩ := Work.of_outcome_bind exported
    obtain ⟨offered, read, kept⟩ := exists_offers_of_readRule found
    obtain ⟨values, taken, made⟩ :=
      exists_offers_of_take (Work.of_outcome_lift exported).1 (Work.of_outcome_lift made).1
    exact ⟨values, .takeText read kept taken, made⟩

end Creation

end Rule

end Recurrence
