import Recurrence.Intake.Fields
import Recurrence.Proofs.Outcome

namespace Recurrence.Intake

variable {α β γ : Type}

theorem within_eq_ok {step : Text} {a : Intake α} {x : α} : within step a = .ok x ↔ a = .ok x := by
  cases a with
  | ok y => rfl
  | error complaints => exact ⟨fun made => (nomatch made), fun made => nomatch made⟩

theorem both_eq_ok {f : α → β → γ} {a : Intake α} {b : Intake β} {z : γ} :
    both f a b = .ok z ↔ ∃ x y, a = .ok x ∧ b = .ok y ∧ f x y = z := by
  cases a with
  | error complaints =>
    refine iff_of_false (fun made => ?_) ?_
    · cases b <;> cases made
    · rintro ⟨x, y, made, _⟩
      cases made
  | ok x =>
    cases b with
    | error complaints =>
      refine iff_of_false (fun made => nomatch made) ?_
      rintro ⟨x, y, _, made, _⟩
      cases made
    | ok y =>
      refine ⟨fun made => ⟨x, y, rfl, rfl, Except.ok.inj made⟩, ?_⟩
      rintro ⟨_, _, first, second, rfl⟩
      cases first
      cases second
      rfl

theorem take_eq_ok {f : Intake (α → β)} {a : Intake α} {z : β} :
    take f a = .ok z ↔ ∃ g x, f = .ok g ∧ a = .ok x ∧ g x = z :=
  both_eq_ok

theorem andThen_eq_ok {a : Intake α} {f : α → Intake β} {z : β} :
    a.andThen f = .ok z ↔ ∃ x, a = .ok x ∧ f x = .ok z :=
  Outcome.bind_eq_ok

theorem meaning_eq_ok {x : Except Fault α} {a : α} : meaning x = .ok a ↔ x = .ok a := by
  cases x with
  | ok b => exact ⟨fun made => congrArg _ (Except.ok.inj made), fun made => congrArg _ (Except.ok.inj made)⟩
  | error fault => exact ⟨fun made => (nomatch made), fun made => nomatch made⟩

/-- All items are taken in when each of them is. -/
theorem all_eq_ok {items : List (Intake α)} {values : List α} :
    all items = .ok values ↔ items = values.map Except.ok := by
  induction items generalizing values with
  | nil =>
    cases values with
    | nil => exact ⟨fun _ => rfl, fun _ => rfl⟩
    | cons value values => exact ⟨fun made => (nomatch made), fun made => nomatch made⟩
  | cons item items ih =>
    rw [all, both_eq_ok]
    constructor
    · rintro ⟨x, rest, rfl, later, rfl⟩
      rw [List.map_cons, ih.mp later]
    · intro whole
      cases values with
      | nil => cases whole
      | cons value values =>
        rw [List.map_cons, List.cons.injEq] at whole
        exact ⟨value, values, whole.1, ih.mpr whole.2, rfl⟩

/-- The items of a list are taken in one by one. -/
theorem list_eq_ok {read : Datum → Intake α} {items : List Datum} {values : List α} :
    list read (.list items) = .ok values ↔
      List.Forall₂ (fun d x => read d = .ok x) items values := by
  have numbered (first : Nat) : (items.zipIdx first).map
        (fun entry => within (Text.ofNat entry.2) (read entry.1)) = values.map Except.ok ↔
      List.Forall₂ (fun d x => read d = .ok x) items values := by
    induction items generalizing first values with
    | nil => cases values <;> simp
    | cons d items ih =>
      cases values with
      | nil => simp
      | cons value values =>
        rw [List.zipIdx_cons, List.map_cons, List.map_cons, List.cons.injEq, ih, within_eq_ok,
          List.forall₂_cons]
  exact all_eq_ok.trans (numbered 0)

theorem field_eq_ok {entries : Entries} {name : String} {read : Datum → Intake α} {x : α} :
    field entries name read = .ok x ↔
      ∃ value, entries.lookup name.toList = some value ∧ read value = .ok x := by
  unfold field
  rw [within_eq_ok]
  cases entries.lookup name.toList with
  | none => exact ⟨fun made => (nomatch made), fun ⟨_, found, _⟩ => nomatch found⟩
  | some value => simp

theorem fieldOr_eq_ok {entries : Entries} {name : String} {fallback : α} {read : Datum → Intake α}
    {x : α} : fieldOr entries name fallback read = .ok x ↔
      entries.lookup name.toList = none ∧ fallback = x ∨
        ∃ value, entries.lookup name.toList = some value ∧ read value = .ok x := by
  unfold fieldOr
  cases entries.lookup name.toList with
  | none => simp
  | some value => simp [within_eq_ok]

/-- There is no complaint about names that are all known. -/
theorem onlyKnown_ok {names : List Text} {entries : Entries}
    (known : ∀ entry ∈ entries, entry.1 ∈ names) : onlyKnown names entries = .ok () := by
  have none : (entries.filterMap fun entry =>
      if names.contains entry.1 then none else some (⟨[entry.1], .extraForbidden⟩ : Complaint)) =
        [] := by
    rw [List.filterMap_eq_nil_iff]
    intro entry member
    rw [if_pos (by simpa using known entry member)]
  simp only [onlyKnown, none, List.isEmpty_nil, if_true]

theorem intIn_eq_ok {low n : Int} {high : Option Int} {d : Datum} :
    intIn low high d = .ok n ↔ int d = .ok n ∧ low ≤ n ∧ ∀ most ∈ high, n ≤ most := by
  unfold intIn
  rw [andThen_eq_ok]
  constructor
  · rintro ⟨m, isInt, bounded⟩
    split at bounded
    · cases bounded
    · split at bounded
      · split at bounded
        · cases bounded
        · cases bounded
          refine ⟨isInt, by omega, fun most same => ?_⟩
          cases same
          omega
      · cases bounded
        exact ⟨isInt, by omega, fun most same => nomatch same⟩
  · rintro ⟨isInt, above, below⟩
    refine ⟨n, isInt, ?_⟩
    rw [if_neg (by omega)]
    cases high with
    | none => rfl
    | some most => exact if_neg (by have := below most rfl; omega)

theorem optional_eq_some {read : Datum → Intake α} {d : Datum} {x : α}
    (taken : optional read d = .ok (some x)) : read d = .ok x := by
  unfold optional at taken
  split at taken
  · cases taken
  · obtain ⟨_, taken, same⟩ := Outcome.map_eq_ok.mp taken
    cases same
    exact taken

end Recurrence.Intake
