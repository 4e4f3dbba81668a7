import Recurrence.Proofs.Rule.NormalForm
import Recurrence.Proofs.Session.Creation
import Recurrence.Rule.History

namespace Recurrence.Rule

/-- How a rule in normal form behaves when it is made again or values of it are replaced. -/
structure StaysNormal (r : Rule) : Prop where
  /-- The list parts hold tuples. -/
  lists : ∀ part : ListPart, ∃ items, r.draft (.list part) = .tuple items
  /-- A moment at the end is in UTC and has whole milliseconds. -/
  ends : ∀ t, r.draft .ends = .moment t → t.offset = some 0 ∧ t.micros % 1000 = 0
  /-- The constructor gives the rule again when all that it holds is given, -/
  constructed : ∀ own, r.Holds own → (∀ part, own.given? part ≠ none) → ofNamed own = .ok r
  /-- and so does replacing any of it, or nothing. -/
  replaced : ∀ own, r.Holds own → r.replace own = .ok r
  /-- The named parts have the normal form of what is given for them. -/
  named : ∀ (changes : Entries) s part value, r.replace changes = .ok s →
    changes.given? part = some value → part.normalize value = .ok (s.draft part)
  /-- A moment that is given for the end stays that moment, with its milliseconds. -/
  ended : ∀ (changes : Entries) s t, r.replace changes = .ok s →
    changes.given? .ends = some (.moment t) →
    ∃ u, s.ends = .moment u ∧ u.offset = some 0 ∧ u.instant = t.instant - t.instant % 1000
  /-- The other parts are as they were. -/
  unnamed : ∀ (changes : Entries) s part, r.replace changes = .ok s → changes.given? part = none →
    s.draft part = r.draft part
  /-- Replacements that name no part in common change places, -/
  commutes : ∀ first second u, (first.map Prod.fst).Disjoint (second.map Prod.fst) →
    ((r.replace first >>= fun s => s.replace second) = .ok u ↔
      (r.replace second >>= fun t => t.replace first) = .ok u)
  /-- and can be made one after the other when both can be made. -/
  joins : ∀ first second s t, (first.map Prod.fst).Disjoint (second.map Prod.fst) →
    r.replace first = .ok s → r.replace second = .ok t →
    ∃ u, s.replace second = .ok u ∧ t.replace first = .ok u

theorem staysNormal (r : Rule) : r.StaysNormal where
  lists part := r.isNormal_draft (.list part)
  ends := r.isNormal_draft .ends
  constructed _ := ofNamed_of_holds
  replaced _ := replace_of_holds
  named _ _ _ _ replaced := draft_replace_of_named replaced
  ended _ _ _ replaced given := Part.instant_of_normalize_ends (draft_replace_of_named replaced given)
  unnamed _ _ _ := draft_replace_of_unnamed
  commutes _ _ _ := replace_comm
  joins _ _ _ _ := exists_replace_both

namespace History

/-- What is done with a rule under change: another one is made from outside, values of it are
replaced, it goes back to a remembered rule, or it is read back from its exchanged form or from
its text. -/
inductive Step where
  | create (creation : Creation)
  | replace (changes : Entries)
  | restore (place : Int)
  | exchange
  | reread (given : Option Limits)

/-- The history that a step leads to. -/
def Step.work (h : History) : Step → Work History
  | create creation => do return h.push (← creation.make)
  | replace changes => Work.lift Failure.fault (h.replace changes)
  | restore place => Work.lift Failure.fault (h.restore place)
  | exchange => do return h.push (← (Creation.takeIn (.dict h.current.entries)).make)
  | reread given => do
    let text ← Work.printRule given h.current
    return h.push (← (Creation.read none (.str text)).make)

/-- A session and the history in it after a step. The history stays when the step fails. -/
def after (state : Session × History) (step : Step) : Session × History :=
  match (step.work state.2).outcome state.1 with
  | (.ok h, session) => (session, h)
  | (.error _, session) => (session, state.2)

/-- The session and the history after some steps. -/
def run (state : Session × History) (steps : List Step) : Session × History :=
  steps.foldl after state

/-- Where a rule comes from: a step made it, from outside or of a rule that was there earlier, and
it holds the normal form of what it was made of. -/
inductive Origin (steps : List Step) (earlier : List Rule) (r : Rule) : Prop
  | created {creation values} (taken : .create creation ∈ steps) (offers : creation.Offers values)
      (kept : r.Normalizes (Draft.default.setAll values))
  | replaced {changes s} (taken : .replace changes ∈ steps) (there : s ∈ earlier)
      (kept : r.Normalizes (s.draft.update changes))
  | exchanged {s values} (taken : .exchange ∈ steps) (there : s ∈ earlier)
      (offers : (Creation.takeIn (.dict s.entries)).Offers values)
      (kept : r.Normalizes (Draft.default.setAll values))
  | reread {given s form values} (taken : .reread given ∈ steps) (there : s ∈ earlier)
      (offers : (Creation.read none (.str (s.print form))).Offers values)
      (kept : r.Normalizes (Draft.default.setAll values))

variable {h next : History} {r : Rule} {step : Step} {steps more : List Step}
  {earlier : List Rule} {before session : Session} {failure : Failure}

theorem Origin.mono (origin : Origin steps earlier r) (within : steps ⊆ more) :
    Origin more earlier r := by
  cases origin with
  | created taken offers kept => exact .created (within taken) offers kept
  | replaced taken there kept => exact .replaced (within taken) there kept
  | exchanged taken there offers kept => exact .exchanged (within taken) there offers kept
  | reread taken there offers kept => exact .reread (within taken) there offers kept

theorem mem_of_at? {place : Int} (found : h.at? place = some r) : r ∈ h.seen := by
  unfold at? at found
  split at found
  · exact List.mem_of_getElem? found
  · split at found
    · cases found
    · exact List.mem_of_getElem? found

theorem of_replace {changes : Entries} (replaced : h.replace changes = .ok next) :
    ∃ r, h.current.replace changes = .ok r ∧ next = h.push r := by
  obtain ⟨r, replaced, pushed⟩ := Outcome.bind_eq_ok.mp replaced
  exact ⟨r, replaced, (Outcome.pure_eq_ok.mp pushed).symm⟩

theorem of_restore {place : Int} (restored : h.restore place = .ok next) :
    ∃ r ∈ h.seen, next = { h with current := r } := by
  unfold restore at restored
  split at restored
  · rename_i r found
    cases restored
    exact ⟨r, mem_of_at? found, rfl⟩
  · cases restored

theorem of_push {creation : Creation}
    (made : (do return h.push (← creation.make) : Work History).outcome before =
      (.ok next, session)) :
    ∃ r values, creation.Offers values ∧ r.Normalizes (Draft.default.setAll values) ∧
      next = h.push r := by
  obtain ⟨r, _, made, pushed⟩ := Work.of_outcome_bind made
  obtain ⟨values, offers, constructed⟩ := Creation.exists_offers made
  cases pushed
  exact ⟨r, values, offers, ofDraft_ok_iff_normalizes.mp constructed, rfl⟩

/-- A step goes back to a remembered rule, or on to a rule that it makes. -/
theorem of_work (known : h.current ∈ h.seen) (here : step ∈ steps)
    (taken : (step.work h).outcome before = (.ok next, session)) :
    (∃ r ∈ h.seen, next = { h with current := r }) ∨
      ∃ r, Origin steps h.seen r ∧ next = h.push r := by
  cases step with
  | create creation =>
    obtain ⟨r, values, offers, kept, pushed⟩ := of_push taken
    exact .inr ⟨r, .created here offers kept, pushed⟩
  | replace changes =>
    obtain ⟨r, replaced, pushed⟩ := of_replace (Work.of_outcome_lift taken).1
    exact .inr ⟨r, .replaced here known (replace_ok_iff.mp replaced).2, pushed⟩
  | restore place => exact .inl (of_restore (Work.of_outcome_lift taken).1)
  | exchange =>
    obtain ⟨r, values, offers, kept, pushed⟩ := of_push taken
    exact .inr ⟨r, .exchanged here known offers kept, pushed⟩
  | reread given =>
    obtain ⟨text, _, printed, taken⟩ := Work.of_outcome_bind taken
    obtain ⟨limits, _, _, printed⟩ := Work.of_outcome_bind printed
    cases printed
    obtain ⟨r, values, offers, kept, pushed⟩ := of_push taken
    exact .inr ⟨r, .reread here known offers kept, pushed⟩

theorem after_of_error (failed : (step.work h).outcome before = (.error failure, session)) :
    after (before, h) step = (session, h) := by
  unfold after
  rw [failed]

/-- Replacing that fails leaves no trace at all. -/
theorem after_replace_of_error {changes : Entries} {cause : Fault}
    (failed : h.current.replace changes = .error cause) :
    after (before, h) (.replace changes) = (before, h) := by
  have refused : h.replace changes = .error cause := Outcome.bind_eq_error.mpr (.inl failed)
  have taken : ((Step.replace changes).work h).outcome before =
      (.error (.fault cause), before) := by
    change (Work.lift Failure.fault (h.replace changes)).outcome before = _
    rw [refused]
    rfl
  exact after_of_error taken

/-- Rules in the order in which steps made them, each from outside or of those before it. -/
inductive Grown (steps : List Step) : List Rule → Prop
  | nil : Grown steps []
  | next {seen r} (before : Grown steps seen) (origin : Origin steps seen r) :
      Grown steps (seen ++ [r])

theorem Grown.mono {seen : List Rule} (grown : Grown steps seen) (within : steps ⊆ more) :
    Grown more seen := by
  induction grown with
  | nil => exact .nil
  | next _ origin ih => exact .next ih (origin.mono within)

/-- Whether a history has come about by the steps. -/
structure IsTraced (h : History) (steps : List Step) : Prop where
  current_mem : h.current ∈ h.seen
  grown : Grown steps h.seen

theorem isTraced_start (origin : Origin steps [] r) : (start r).IsTraced steps where
  current_mem := List.mem_singleton_self r
  grown := .next .nil origin

/-- One more step keeps what is remembered, and may add to it. -/
theorem IsTraced.after (traced : h.IsTraced steps) (before : Session) (step : Step) :
    (History.after (before, h) step).2.IsTraced (steps ++ [step]) ∧
      h.seen <+: (History.after (before, h) step).2.seen := by
  have longer := traced.grown.mono (List.subset_append_left steps [step])
  have here : step ∈ steps ++ [step] := List.mem_append_right _ (List.mem_singleton_self step)
  rcases taken : (step.work h).outcome before with ⟨result, session⟩
  unfold History.after
  rw [taken]
  cases result with
  | error failure => exact ⟨⟨traced.current_mem, longer⟩, List.prefix_rfl⟩
  | ok next =>
    obtain ⟨r, there, rfl⟩ | ⟨r, origin, rfl⟩ := of_work traced.current_mem here taken
    · exact ⟨⟨there, longer⟩, List.prefix_rfl⟩
    · have current : r ∈ h.seen ++ [r] := List.mem_append_right _ (List.mem_singleton_self r)
      exact ⟨⟨current, .next longer origin⟩, List.prefix_append ..⟩

theorem IsTraced.run (traced : h.IsTraced steps) (before : Session) (more : List Step) :
    (History.run (before, h) more).2.IsTraced (steps ++ more) ∧
      h.seen <+: (History.run (before, h) more).2.seen := by
  -- The steps that are left begin where the first one leads, and with it among the taken ones.
  induction more generalizing h before steps with
  | nil => exact ⟨(List.append_nil steps).symm ▸ traced, List.prefix_rfl⟩
  | cons step more ih =>
    obtain ⟨stepped, kept⟩ := traced.after before step
    obtain ⟨reached, later⟩ := ih stepped (History.after (before, h) step).1
    rw [List.append_assoc] at reached
    exact ⟨reached, kept.trans later⟩

/-- What holds of a history that has come about by the steps. -/
structure IsOrderly (h : History) (steps : List Step) : Prop where
  /-- Every rule was made by a step, and holds the normal form of what it was made of. -/
  traced : h.IsTraced steps
  /-- Every rule is in normal form and stays so. -/
  normal : ∀ r ∈ h.seen, r.StaysNormal
  /-- Whatever is done further, the rules that are remembered are kept as they are. -/
  keeps : ∀ session more, h.seen <+: (run (session, h) more).2.seen
  /-- A step that fails leaves the history as it is, -/
  fails : ∀ session step failure later, (step.work h).outcome session = (.error failure, later) →
    after (session, h) step = (later, h)
  /-- and a replacement that fails the session, too. -/
  refuses : ∀ session changes cause, h.current.replace changes = .error cause →
    after (session, h) (.replace changes) = (session, h)

/-- However a session begins and goes on, its rules are in normal form. -/
theorem isOrderly_run {creation : Creation}
    (made : creation.make.outcome before = (.ok r, session)) (steps : List Step) :
    (run (session, start r) steps).2.IsOrderly (.create creation :: steps) := by
  obtain ⟨values, offers, constructed⟩ := Creation.exists_offers made
  have origin : Origin [.create creation] [] r :=
    .created (List.mem_singleton_self _) offers (ofDraft_ok_iff_normalizes.mp constructed)
  have traced := ((isTraced_start origin).run session steps).1
  exact {
    traced
    normal := fun r _ => r.staysNormal
    keeps := fun session more => (traced.run session more).2
    fails := fun _ _ _ _ => after_of_error
    refuses := fun _ _ _ => after_replace_of_error }

/-- A daily rule of values that are in no normal form: a list, and an end that is apart from UTC
and has a part of a millisecond. -/
def looseDaily : Creation := .construct [("frequency".toList, .frequency .daily),
  ("until".toList, .moment ⟨63902822398, 375999, some 7200, by decide, by decide⟩),
  ("by_hour".toList, .list [.int 9])]

/-- Steps that succeed and fail. -/
def someSteps : List Step := [.replace [("interval".toList, .int 2)],
  .replace [("by_month".toList, .int 3)], .create (.read none (.str "FREQ=WEEKLY".toList)),
  .restore 1, .exchange]

theorem isOrderly_run_someSteps :
    let r : Rule := { bare (.frequency .daily) with
      ends := .moment ⟨63902815198, 375000, some 0, by decide, by decide⟩
      hours := [.int 9]
      ends_normal := by rintro _ ⟨⟩; rfl }
    let h := (run ({}, start r) someSteps).2
    looseDaily.make.outcome {} = (.ok r, {}) ∧
      h.seen = [r, { r with interval := .int 2 }, bare (.frequency .weekly),
        { r with interval := .int 2 }] ∧
      h.IsOrderly (.create looseDaily :: someSteps) := by
  intro r h
  have made : looseDaily.make.outcome {} = (.ok r, {}) := by rfl
  exact ⟨made, by decide +kernel, isOrderly_run made someSteps⟩

end History

end Recurrence.Rule
