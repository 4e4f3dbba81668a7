import Mathlib.Data.List.Forall2

namespace Recurrence.Outcome

variable {ε δ α β : Type}

theorem bind_eq_ok {x : Except ε α} {f : α → Except ε β} {b : β} :
    (x >>= f) = .ok b ↔ ∃ a, x = .ok a ∧ f a = .ok b := by
  cases x with
  | error e =>
    refine ⟨fun made => ?_, fun ⟨_, made, _⟩ => ?_⟩ <;> cases made
  | ok a =>
    refine ⟨fun made => ⟨a, rfl, made⟩, ?_⟩
    rintro ⟨other, same, made⟩
    cases same
    exact made

theorem bind_eq_error {x : Except ε α} {f : α → Except ε β} {e : ε} :
    (x >>= f) = .error e ↔ x = .error e ∨ ∃ a, x = .ok a ∧ f a = .error e := by
  cases x with
  | error other =>
    refine ⟨fun failed => .inl ?_, ?_⟩
    · cases failed
      rfl
    · rintro (failed | ⟨_, made, _⟩)
      · cases failed
        rfl
      · cases made
  | ok a =>
    refine ⟨fun failed => .inr ⟨a, rfl, failed⟩, ?_⟩
    rintro (failed | ⟨other, same, failed⟩)
    · cases failed
    · cases same
      exact failed

theorem then_eq_ok {x : Except ε Unit} {f : Unit → Except ε β} {b : β} :
    (x >>= f) = .ok b ↔ x = .ok () ∧ f () = .ok b :=
  bind_eq_ok.trans ⟨fun ⟨(), checked, made⟩ => ⟨checked, made⟩, fun made => ⟨(), made⟩⟩

theorem pure_eq_ok {a b : α} : (pure a : Except ε α) = .ok b ↔ a = b :=
  ⟨Except.ok.inj, congrArg _⟩

theorem mapError_eq_ok {x : Except ε α} {wrap : ε → δ} {a : α} :
    x.mapError wrap = .ok a ↔ x = .ok a := by
  cases x with
  | error e =>
    refine ⟨fun made => ?_, fun made => ?_⟩ <;> cases made
  | ok b => exact ⟨fun made => congrArg _ (Except.ok.inj made), fun made => by rw [made]; rfl⟩

theorem map_eq_ok {x : Except ε α} {f : α → β} {b : β} :
    x.map f = .ok b ↔ ∃ a, x = .ok a ∧ f a = b := by
  cases x with
  | error e =>
    refine ⟨fun made => (nomatch made), ?_⟩
    rintro ⟨_, made, _⟩
    cases made
  | ok a =>
    refine ⟨fun made => ⟨a, rfl, Except.ok.inj made⟩, ?_⟩
    rintro ⟨_, same, rfl⟩
    cases same
    rfl

theorem toOption_eq_some {x : Except ε α} {a : α} : x.toOption = some a ↔ x = .ok a := by
  cases x with
  | error e => exact ⟨nofun, nofun⟩
  | ok b => exact ⟨fun same => congrArg _ (Option.some.inj same), fun made => by rw [made]; rfl⟩

theorem map_injective {f : α → β} (injective : Function.Injective f) :
    Function.Injective (Except.map f : Except ε α → Except ε β) := by
  intro x y same
  cases x with
  | error e =>
    cases y with
    | error other =>
      cases same
      rfl
    | ok b => cases same
  | ok a =>
    cases y with
    | error other => cases same
    | ok b => rw [injective (Except.ok.inj same)]

theorem mapError_injective {wrap : ε → δ} (injective : Function.Injective wrap) :
    Function.Injective (Except.mapError wrap : Except ε α → Except δ α) := by
  intro x y same
  cases x with
  | error e =>
    cases y with
    | error other => rw [injective (Except.error.inj same)]
    | ok b => cases same
  | ok a =>
    cases y with
    | error other => cases same
    | ok b =>
      cases same
      rfl

theorem mapError_eq_error {x : Except ε α} {wrap : ε → δ} {e : δ} :
    x.mapError wrap = .error e ↔ ∃ cause, x = .error cause ∧ wrap cause = e := by
  cases x with
  | error cause =>
    refine ⟨fun failed => ⟨cause, rfl, Except.error.inj failed⟩, ?_⟩
    rintro ⟨_, same, rfl⟩
    cases same
    rfl
  | ok a =>
    refine ⟨fun failed => (nomatch failed), ?_⟩
    rintro ⟨_, failed, _⟩
    cases failed

/-- A check of a list succeeds when it does for every item. -/
theorem forM_eq_ok {check : α → Except ε Unit} {items : List α} :
    items.forM check = .ok () ↔ ∀ a ∈ items, check a = .ok () := by
  induction items with
  | nil => exact ⟨fun _ _ member => (nomatch member), fun _ => rfl⟩
  | cons a items ih =>
    change (check a >>= fun _ => items.forM check) = .ok () ↔ _
    rw [bind_eq_ok]
    constructor
    · rintro ⟨_, first, rest⟩ b member
      rcases List.mem_cons.mp member with rfl | later
      · exact first
      · exact ih.mp rest b later
    · intro all
      exact ⟨(), all a (List.mem_cons_self ..),
        ih.mpr fun b member => all b (List.mem_cons_of_mem _ member)⟩

/-- A check of a list that fails does so at some item. -/
theorem exists_of_forM_eq_error {check : α → Except ε Unit} {items : List α} {e : ε}
    (failed : items.forM check = .error e) : ∃ a ∈ items, check a = .error e := by
  induction items with
  | nil => cases failed
  | cons a items ih =>
    change (check a >>= fun _ => items.forM check) = .error e at failed
    obtain first | ⟨_, _, later⟩ := bind_eq_error.mp failed
    · exact ⟨a, List.mem_cons_self .., first⟩
    · obtain ⟨b, member, failed⟩ := ih later
      exact ⟨b, List.mem_cons_of_mem _ member, failed⟩

/-- A list is read item by item. -/
theorem mapM_eq_ok_iff {read : α → Except ε β} {items : List α} {values : List β} :
    items.mapM read = .ok values ↔ List.Forall₂ (fun a b => read a = .ok b) items values := by
  induction items generalizing values with
  | nil =>
    rw [List.mapM_nil, pure_eq_ok, List.forall₂_nil_left_iff]
    exact eq_comm
  | cons a items ih =>
    rw [List.mapM_cons, bind_eq_ok, List.forall₂_cons_left_iff]
    constructor
    · rintro ⟨b, first, made⟩
      obtain ⟨rest, later, made⟩ := bind_eq_ok.mp made
      exact ⟨b, rest, first, ih.mp later, (pure_eq_ok.mp made).symm⟩
    · rintro ⟨b, rest, first, later, rfl⟩
      exact ⟨b, first, bind_eq_ok.mpr ⟨rest, ih.mpr later, rfl⟩⟩

theorem mapM_ok {read : α → Except ε β} {value : α → β} {items : List α}
    (each : ∀ a ∈ items, read a = .ok (value a)) : items.mapM read = .ok (items.map value) :=
  mapM_eq_ok_iff.mpr (List.forall₂_map_right_iff.mpr (List.forall₂_same.mpr each))

theorem length_mapM {read : α → Except ε β} {items : List α} {values : List β}
    (found : items.mapM read = .ok values) : values.length = items.length :=
  (mapM_eq_ok_iff.mp found).length_eq.symm

/-- A list is read when each of its items is. -/
theorem mapM_ok_iff {read : α → Except ε β} {items : List α} :
    (∃ values, items.mapM read = .ok values) ↔ ∀ a ∈ items, ∃ b, read a = .ok b := by
  induction items with
  | nil => exact ⟨fun _ _ member => (nomatch member), fun _ => ⟨[], rfl⟩⟩
  | cons a items ih =>
    rw [List.forall_mem_cons, ← ih]
    simp only [List.mapM_cons, bind_eq_ok, pure_eq_ok]
    constructor
    · rintro ⟨_, b, first, values, rest, _⟩
      exact ⟨⟨b, first⟩, values, rest⟩
    · rintro ⟨⟨b, first⟩, values, rest⟩
      exact ⟨_, b, first, values, rest, rfl⟩

/-- Reading a list fails at its first item that cannot be read. -/
theorem mapM_eq_error_iff {read : α → Except ε β} {items : List α} {e : ε} :
    items.mapM read = .error e ↔ ∃ before a after, items = before ++ a :: after ∧
      (∀ b ∈ before, ∃ value, read b = .ok value) ∧ read a = .error e := by
  induction items with
  | nil =>
    refine ⟨fun failed => (nomatch failed), ?_⟩
    rintro ⟨before, a, after, whole, _⟩
    cases before <;> cases whole
  | cons first items ih =>
    rw [List.mapM_cons, bind_eq_error]
    constructor
    · rintro (failed | ⟨value, read, failed⟩)
      · exact ⟨[], first, items, rfl, fun _ member => (nomatch member), failed⟩
      · obtain failed | ⟨_, _, made⟩ := bind_eq_error.mp failed
        · obtain ⟨before, a, after, rfl, each, failed⟩ := ih.mp failed
          refine ⟨first :: before, a, after, rfl, ?_, failed⟩
          intro b member
          rcases List.mem_cons.mp member with rfl | member
          · exact ⟨value, read⟩
          · exact each b member
        · cases made
    · rintro ⟨before, a, after, whole, each, failed⟩
      cases before with
      | nil =>
        cases whole
        exact .inl failed
      | cons b before =>
        cases whole
        obtain ⟨value, read⟩ := each first (List.mem_cons_self ..)
        refine .inr ⟨value, read, bind_eq_error.mpr (.inl (ih.mpr ⟨before, a, after, rfl, ?_, failed⟩))⟩
        exact fun c member => each c (List.mem_cons_of_mem _ member)

theorem exists_of_mem_right {related : α → β → Prop} {items : List α} {values : List β}
    (each : List.Forall₂ related items values) {b : β} (member : b ∈ values) :
    ∃ a ∈ items, related a b := by
  induction each with
  | nil => cases member
  | cons first _ ih =>
    rcases List.mem_cons.mp member with rfl | later
    · exact ⟨_, List.mem_cons_self .., first⟩
    · obtain ⟨other, among, alike⟩ := ih later
      exact ⟨other, List.mem_cons_of_mem _ among, alike⟩

theorem exists_of_mem_left {related : α → β → Prop} {items : List α} {values : List β}
    (each : List.Forall₂ related items values) {a : α} (member : a ∈ items) :
    ∃ b ∈ values, related a b := by
  have turned : List.Forall₂ (flip related) values items := List.Forall₂.flip each
  exact exists_of_mem_right turned member

/-- Two lists are the same in some respect when they are so item by item. -/
theorem map_eq_map_iff {γ : Type} {f : α → γ} {g : β → γ} {items : List α} {values : List β} :
    items.map f = values.map g ↔ List.Forall₂ (fun a b => f a = g b) items values := by
  rw [← List.forall₂_eq_eq_eq, List.forall₂_map_left_iff, List.forall₂_map_right_iff]

/-- Lists with the same images are the same when items of the one and of the other can be told
apart by them. -/
theorem eq_of_map_eq {f : α → β} {items values : List α}
    (injective : ∀ a ∈ items, ∀ b ∈ values, f a = f b → a = b)
    (same : items.map f = values.map f) : items = values := by
  induction items generalizing values with
  | nil => exact (List.map_eq_nil_iff.mp same.symm).symm
  | cons a items ih =>
    cases values with
    | nil => cases same
    | cons b values =>
      rw [List.map_cons, List.map_cons, List.cons.injEq] at same
      rw [injective a (List.mem_cons_self ..) b (List.mem_cons_self ..) same.1,
        ih (fun c member d among => injective c (List.mem_cons_of_mem _ member) d
          (List.mem_cons_of_mem _ among)) same.2]

/-- What lists are related to one after the other, items and values alike, can be related as a
whole. -/
theorem exists_forall₂ {γ ζ : Type} {onward : α → γ → Prop} {before : α → β → Prop}
    {after : γ → ζ → Prop} {alike : β → ζ → Prop} {items : List α} {others : List γ}
    {values : List β}
    (each : ∀ a c b, onward a c → before a b → ∃ z, after c z ∧ alike b z)
    (moved : List.Forall₂ onward items others) (found : List.Forall₂ before items values) :
    ∃ results, List.Forall₂ after others results ∧ List.Forall₂ alike values results := by
  induction moved generalizing values with
  | nil =>
    cases found
    exact ⟨[], .nil, .nil⟩
  | cons first _ ih =>
    obtain ⟨b, rest, here, later, rfl⟩ := List.forall₂_cons_left_iff.mp found
    obtain ⟨z, reached, same⟩ := each _ _ b first here
    obtain ⟨results, others, values⟩ := ih later
    exact ⟨z :: results, .cons reached others, .cons same values⟩

theorem mem_mapM {read : α → Except ε β} {items : List α} {values : List β}
    (found : items.mapM read = .ok values) {b : β} (member : b ∈ values) :
    ∃ a ∈ items, read a = .ok b :=
  exists_of_mem_right (mapM_eq_ok_iff.mp found) member

theorem mem_mapM_of_mem {read : α → Except ε β} {items : List α} {values : List β}
    (found : items.mapM read = .ok values) {a : α} (member : a ∈ items) :
    ∃ b ∈ values, read a = .ok b :=
  exists_of_mem_left (mapM_eq_ok_iff.mp found) member

/-- Whether two outcomes are the same error, or values that are related. -/
inductive Related (related : α → β → Prop) : Except ε α → Except ε β → Prop
  | error (e : ε) : Related related (.error e) (.error e)
  | ok {a : α} {b : β} (values : related a b) : Related related (.ok a) (.ok b)

/-- Related outcomes stay related when they are used alike. -/
theorem Related.bind {γ : Type} {related : α → β → Prop} {further : γ → δ → Prop} {x : Except ε α}
    {y : Except ε β} (outcomes : Related related x y) {f : α → Except ε γ} {g : β → Except ε δ}
    (onward : ∀ a b, related a b → Related further (f a) (g b)) :
    Related further (x >>= f) (y >>= g) := by
  cases outcomes with
  | error e => exact .error e
  | ok values => exact onward _ _ values

theorem Related.map {γ : Type} {related : α → β → Prop} {further : γ → δ → Prop} {x : Except ε α}
    {y : Except ε β} (outcomes : Related related x y) {f : α → γ} {g : β → δ}
    (onward : ∀ a b, related a b → further (f a) (g b)) : Related further (x.map f) (y.map g) := by
  cases outcomes with
  | error e => exact .error e
  | ok values => exact .ok (onward _ _ values)

end Recurrence.Outcome
