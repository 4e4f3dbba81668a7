import Recurrence.Proofs.Session.Operations

namespace Recurrence

/-- What happens in a session from outside: variables change, settings are asked for, built
anew or forgotten, and work is done with settings of its own or without. -/
inductive Step : Type 1
  | setVariable (name value : Text)
  | unsetVariable (name : Text)
  | read (cache : Cache)
  | make (cache : Cache) (given : Entries)
  | forget
  | call {cache : Cache} {α : Type} (operation : Operation cache α)
      (given : Option cache.Settings)
  | perform {α : Type} (routine : Routine α)

/-- The environment after a step. Only what happens to variables shows in it. -/
def Environment.after (environment : Environment) : Step → Environment
  | .setVariable name value => environment.put name value
  | .unsetVariable name => environment.remove name
  | _ => environment

/-- The environment after some steps. -/
def Environment.run (environment : Environment) (steps : List Step) : Environment :=
  steps.foldl Environment.after environment

namespace Session

/-- The session after a step, whether the work in it succeeds or not. -/
def after (session : Session) : Step → Session
  | .setVariable name value => ((Work.setVariable name value).outcome session).2
  | .unsetVariable name => ((Work.unsetVariable name).outcome session).2
  | .read cache => (cache.read.outcome session).2
  | .make cache given => ((cache.make given).outcome session).2
  | .forget => (Work.forget.outcome session).2
  | .call operation given => ((operation.run given).outcome session).2
  | .perform routine => (routine.run.outcome session).2

/-- A session that begins in an environment, after some steps. -/
def run (environment : Environment) (steps : List Step) : Session :=
  steps.foldl Session.after { environment }

end Session

/-- Whether a step asks for settings of the kind: a session that is empty then has some. -/
def Step.looksUp (cache : Cache) (step : Step) : Bool :=
  (cache.kept (({} : Session).after step)).isSome

/-- The step with the number asks for settings where the environment gives the settings. -/
def LoadsAt (cache : Cache) (environment : Environment) (steps : List Step) (i : Nat)
    (settings : cache.Settings) : Prop :=
  ∃ step, steps[i]? = some step ∧ step.looksUp cache = true ∧
    cache.load [] (environment.run (steps.take i)) = .ok settings

/-- The step with the number is where settings come from: they are loaded there, they have not
been forgotten since, and whatever was loaded before had been forgotten by then. -/
structure Origin (cache : Cache) (environment : Environment) (steps : List Step) (i : Nat)
    (settings : cache.Settings) : Prop where
  loads : LoadsAt cache environment steps i settings
  lasts : ∀ k, i < k → steps[k]? ≠ some .forget
  first : ∀ j other, j < i → LoadsAt cache environment steps j other →
    ∃ k, j < k ∧ k < i ∧ steps[k]? = some .forget

variable {cache : Cache} {environment : Environment} {steps : List Step} {step : Step}
  {settings : cache.Settings} {i : Nat}

theorem Step.not_looksUp_forget : Step.forget.looksUp cache = false := by
  cases cache <;> rfl

/-- Steps that neither change a variable nor forget do work that asks for settings of one kind
at most. -/
theorem Step.consults (step : Step) :
    (∃ name value, step = .setVariable name value) ∨ (∃ name, step = .unsetVariable name) ∨
      step = .forget ∨
      ∃ (own : Cache) (α : Type) (work : Work α), Work.Consults own work ∧
        (∀ session : Session, session.after step = (work.outcome session).2) ∧
        ∀ environment : Environment, environment.after step = environment := by
  cases step with
  | setVariable name value => exact .inl ⟨name, value, rfl⟩
  | unsetVariable name => exact .inr (.inl ⟨name, rfl⟩)
  | forget => exact .inr (.inr (.inl rfl))
  | read own =>
    have consults : Work.Consults own own.read := .of_follows (.readOr own)
    exact .inr (.inr (.inr ⟨own, _, own.read, consults, fun _ => rfl, fun _ => rfl⟩))
  | make own given =>
    -- What is built anew depends on the environment, but the session stays as it is.
    have consults : Work.Consults own (pure () : Work Unit) := .of_independent (.pure ())
    have unchanged (session : Session) : session.after (.make own given) = session :=
      congrArg Prod.snd (Cache.outcome_make given session)
    exact .inr (.inr (.inr ⟨own, Unit, pure (), consults, unchanged, fun _ => rfl⟩))
  | @call own α operation given =>
    have consults : Work.Consults own (operation.run given) := by
      cases given with
      | none => exact .of_follows operation.follows
      | some settings => exact .of_independent (operation.follows.told settings)
    exact .inr (.inr (.inr ⟨own, α, _, consults, fun _ => rfl, fun _ => rfl⟩))
  | @perform α routine =>
    exact .inr (.inr (.inr ⟨.limits, α, _, routine.consults, fun _ => rfl, fun _ => rfl⟩))

section After

variable (session : Session)

theorem Cache.kept_after_forget : cache.kept (session.after .forget) = none := by
  cases cache <;> rfl

/-- What a session keeps is decided by the steps that ask for it. -/
theorem Cache.kept_after (stays : step ≠ .forget) :
    cache.kept (session.after step) =
      if step.looksUp cache then (cache.inForce session).toOption else cache.kept session := by
  obtain ⟨name, value, rfl⟩ | ⟨name, rfl⟩ | forgets | ⟨own, α, work, consults, done, _⟩ :=
    step.consults
  · cases cache <;> rfl
  · cases cache <;> rfl
  · exact absurd forgets stays
  · unfold Step.looksUp
    rw [done, done]
    exact consults.kept_outcome cache session

theorem Session.environment_after :
    (session.after step).environment = session.environment.after step := by
  obtain ⟨name, value, rfl⟩ | ⟨name, rfl⟩ | rfl | ⟨own, α, work, consults, done, same⟩ :=
    step.consults
  · rfl
  · rfl
  · rfl
  · rw [done, same, consults.environment_outcome]

end After

theorem Session.run_concat :
    Session.run environment (steps ++ [step]) = (Session.run environment steps).after step :=
  List.foldl_concat ..

theorem Session.environment_run (environment : Environment) (steps : List Step) :
    (Session.run environment steps).environment = environment.run steps := by
  induction steps using List.reverseRecOn with
  | nil => rfl
  | append_singleton steps step ih =>
    rw [Session.run_concat, Session.environment_after, ih]
    exact (List.foldl_concat ..).symm

section Origins

theorem LoadsAt.lt_length (loads : LoadsAt cache environment steps i settings) :
    i < steps.length := by
  obtain ⟨_, there, _⟩ := loads
  exact (List.getElem?_eq_some_iff.mp there).1

theorem loadsAt_append (earlier : i < steps.length) (more : List Step) :
    LoadsAt cache environment (steps ++ more) i settings ↔
      LoadsAt cache environment steps i settings := by
  unfold LoadsAt
  rw [List.getElem?_append_left earlier, List.take_append_of_le_length earlier.le]

theorem loadsAt_concat_length :
    LoadsAt cache environment (steps ++ [step]) steps.length settings ↔
      step.looksUp cache = true ∧ cache.load [] (environment.run steps) = .ok settings := by
  unfold LoadsAt
  rw [List.getElem?_concat_length, List.take_left]
  constructor
  · rintro ⟨_, there, asks, loaded⟩
    cases there
    exact ⟨asks, loaded⟩
  · rintro ⟨asks, loaded⟩
    exact ⟨step, rfl, asks, loaded⟩

/-- A step that loads settings does not forget them. -/
theorem LoadsAt.ne_forget (loads : LoadsAt cache environment steps i settings) :
    steps[i]? ≠ some .forget := by
  obtain ⟨step, there, asks, _⟩ := loads
  rw [there]
  rintro ⟨⟩
  rw [Step.not_looksUp_forget] at asks
  cases asks

theorem Origin.unique {j : Nat} {other : cache.Settings}
    (origin : Origin cache environment steps i settings)
    (another : Origin cache environment steps j other) : i = j ∧ settings = other := by
  have same : i = j := by
    rcases Nat.lt_trichotomy i j with before | same | after
    · obtain ⟨k, later, _, forgets⟩ := another.first i settings before origin.loads
      exact absurd forgets (origin.lasts k later)
    · exact same
    · obtain ⟨k, later, _, forgets⟩ := origin.first j other after another.loads
      exact absurd forgets (another.lasts k later)
  rw [← same] at another
  obtain ⟨_, _, _, loaded⟩ := origin.loads
  obtain ⟨_, _, _, loadedToo⟩ := another.loads
  rw [loaded] at loadedToo
  exact ⟨same, Except.ok.inj loadedToo⟩

/-- Where something is loaded and not forgotten there is a first such step. -/
theorem exists_origin_of_loadsAt (loads : LoadsAt cache environment steps i settings)
    (lasts : ∀ k, i < k → steps[k]? ≠ some .forget) :
    ∃ j other, Origin cache environment steps j other := by
  induction i using Nat.strongRecOn generalizing settings with
  | ind i ih =>
    by_cases earlier : ∃ j other, j < i ∧ LoadsAt cache environment steps j other ∧
        ∀ k, j < k → k < i → steps[k]? ≠ some .forget
    · obtain ⟨j, other, before, loadsToo, between⟩ := earlier
      refine ih j before loadsToo fun k later => ?_
      rcases Nat.lt_trichotomy k i with inside | same | after
      · exact between k later inside
      · rw [same]
        exact loads.ne_forget
      · exact lasts k after
    · refine ⟨i, settings, loads, lasts, fun j other before loadsToo => ?_⟩
      by_contra none
      refine earlier ⟨j, other, before, loadsToo, fun k later inside forgets => ?_⟩
      exact none ⟨k, later, inside, forgets⟩

/-- Settings come from the same step as long as nothing is forgotten. -/
theorem Origin.append (origin : Origin cache environment steps i settings) {more : List Step}
    (stays : Step.forget ∉ more) : Origin cache environment (steps ++ more) i settings := by
  have early := origin.loads.lt_length
  refine ⟨(loadsAt_append early more).mpr origin.loads, fun k later forgets => ?_,
    fun j other before loads => ?_⟩
  · rcases Nat.lt_or_ge k steps.length with inside | outside
    · rw [List.getElem?_append_left inside] at forgets
      exact origin.lasts k later forgets
    · rw [List.getElem?_append_right outside] at forgets
      exact stays (List.mem_of_getElem? forgets)
  · obtain ⟨k, later, inside, forgets⟩ :=
      origin.first j other before ((loadsAt_append (before.trans early) more).mp loads)
    refine ⟨k, later, inside, ?_⟩
    rw [List.getElem?_append_left (inside.trans early)]
    exact forgets

/-- What comes from an early step came from it before the later ones. -/
theorem Origin.of_append {more : List Step}
    (origin : Origin cache environment (steps ++ more) i settings) (early : i < steps.length) :
    Origin cache environment steps i settings := by
  refine ⟨(loadsAt_append early _).mp origin.loads, fun k later forgets => ?_,
    fun j other before loads => ?_⟩
  · have inside := (List.getElem?_eq_some_iff.mp forgets).1
    exact origin.lasts k later ((List.getElem?_append_left inside).trans forgets)
  · obtain ⟨k, later, inside, forgets⟩ :=
      origin.first j other before ((loadsAt_append (before.trans early) _).mpr loads)
    rw [List.getElem?_append_left (inside.trans early)] at forgets
    exact ⟨k, later, inside, forgets⟩

/-- Settings come from the last step when it can load them and there were none before. -/
theorem origin_concat_length :
    Origin cache environment (steps ++ [step]) steps.length settings ↔
      step.looksUp cache = true ∧ cache.load [] (environment.run steps) = .ok settings ∧
        ∀ j other, ¬Origin cache environment steps j other := by
  constructor
  · intro origin
    obtain ⟨asks, loaded⟩ := loadsAt_concat_length.mp origin.loads
    refine ⟨asks, loaded, fun j other earlier => ?_⟩
    have early := earlier.loads.lt_length
    obtain ⟨k, later, inside, forgets⟩ :=
      origin.first j other early ((loadsAt_append early _).mpr earlier.loads)
    rw [List.getElem?_append_left inside] at forgets
    exact earlier.lasts k later forgets
  · rintro ⟨asks, loaded, none⟩
    refine ⟨loadsAt_concat_length.mpr ⟨asks, loaded⟩, fun k later forgets => ?_,
      fun j other before loads => ?_⟩
    · have within := (List.getElem?_eq_some_iff.mp forgets).1
      rw [List.length_append, List.length_singleton] at within
      omega
    · by_contra between
      have lasts (k : Nat) (later : j < k) : steps[k]? ≠ some .forget := by
        intro forgets
        have inside := (List.getElem?_eq_some_iff.mp forgets).1
        exact between ⟨k, later, inside, (List.getElem?_append_left inside).trans forgets⟩
      obtain ⟨i, settings, origin⟩ :=
        exists_origin_of_loadsAt ((loadsAt_append before _).mp loads) lasts
      exact none i settings origin

/-- After one more step settings come from where they came from, unless they are forgotten, or
from that step when there were none. -/
theorem origin_concat :
    Origin cache environment (steps ++ [step]) i settings ↔
      step ≠ .forget ∧ Origin cache environment steps i settings ∨
      i = steps.length ∧ step.looksUp cache = true ∧
        cache.load [] (environment.run steps) = .ok settings ∧
        ∀ j other, ¬Origin cache environment steps j other := by
  constructor
  · intro origin
    have within := origin.loads.lt_length
    rw [List.length_append, List.length_singleton] at within
    rcases Nat.lt_or_eq_of_le (Nat.le_of_lt_succ within) with early | rfl
    · refine .inl ⟨?_, origin.of_append early⟩
      rintro rfl
      exact origin.lasts steps.length early List.getElem?_concat_length
    · exact .inr ⟨rfl, origin_concat_length.mp origin⟩
  · rintro (⟨stays, origin⟩ | ⟨rfl, loaded⟩)
    · exact origin.append fun forgets => stays (List.mem_singleton.mp forgets).symm
    · exact origin_concat_length.mpr loaded

end Origins

/-- What a session keeps after some steps was loaded at the first of them that could, since
settings were forgotten last. -/
theorem kept_run_iff :
    cache.kept (Session.run environment steps) = some settings ↔
      ∃ i, Origin cache environment steps i settings := by
  induction steps using List.reverseRecOn generalizing settings with
  | nil =>
    refine ⟨fun known => ?_, fun ⟨_, origin⟩ => ?_⟩
    · cases cache <;> cases known
    · cases origin.loads.lt_length
  | append_singleton steps step ih =>
    have unknown : cache.kept (Session.run environment steps) = none ↔
        ∀ j other, ¬Origin cache environment steps j other := by
      simp only [Option.eq_none_iff_forall_ne_some, ne_eq, ih, not_exists]
      exact forall_comm
    rw [Session.run_concat]
    simp only [origin_concat, exists_or, exists_and_left, exists_eq_left]
    by_cases forgets : step = .forget
    · subst forgets
      rw [Cache.kept_after_forget, Step.not_looksUp_forget]
      simp only [ne_eq, not_true_eq_false, false_and, Bool.false_eq_true, or_self, reduceCtorEq]
    · rw [Cache.kept_after _ forgets]
      cases asks : step.looksUp cache with
      | false =>
        simp only [Bool.false_eq_true, if_false, false_and, or_false, forgets, ne_eq,
          not_false_eq_true, true_and, ih]
      | true =>
        rw [if_pos rfl, Outcome.toOption_eq_some, Cache.inForce_eq_ok_iff, ih, unknown,
          Session.environment_run]
        simp only [forgets, ne_eq, not_false_eq_true, true_and]
        exact or_congr_right and_comm

/-- What asking for settings gives after some steps comes from one of them, or is loaded by
that. -/
theorem inForce_run_iff :
    cache.inForce (Session.run environment steps) = .ok settings ↔
      ∃ i, Origin cache environment (steps ++ [.read cache]) i settings := by
  have loads : Work.Loads cache cache.read := (Work.Asks.readOr cache).loads fun _ => .pure _
  rw [← kept_run_iff, Session.run_concat, ← Outcome.toOption_eq_some, ← loads.kept_outcome]
  rfl

/-- What settings are in a session that began in the environment and has taken the steps. -/
structure Session.IsSnapshot (session : Session) (environment : Environment)
    (steps : List Step) : Prop where
  /-- Only changes of variables show in the environment. -/
  environment_eq : session.environment = environment.run steps
  /-- Settings are kept from the first step since they were forgotten that could load them. -/
  kept_iff : ∀ (cache : Cache) settings,
    cache.kept session = some settings ↔ ∃ i, Origin cache environment steps i settings
  /-- Until they are forgotten they are the same, from the same step. -/
  lasts : ∀ (cache : Cache) i settings more, Origin cache environment steps i settings →
    .forget ∉ more →
    ∀ j other, Origin cache environment (steps ++ more) j other ↔ j = i ∧ other = settings
  /-- Settings of both kinds are forgotten together. -/
  forgets : ∀ (cache : Cache) i settings,
    ¬Origin cache environment (steps ++ [.forget]) i settings
  /-- Who asks for settings gets those, where the asking may itself be what loads them. -/
  read_iff : ∀ (cache : Cache) settings, cache.read.result session = .ok settings ↔
    ∃ i, Origin cache environment (steps ++ [.read cache]) i settings
  /-- Where nothing is kept and nothing can be loaded, asking leaves no trace. -/
  refused : ∀ (cache : Cache) complaints,
    (∀ i settings, ¬Origin cache environment steps i settings) →
    cache.load [] (environment.run steps) = .error complaints →
    cache.read.outcome session = (.error (.intake complaints), session)
  /-- Settings that are built anew come from the environment as it is now, and nothing keeps
  them. -/
  make : ∀ (cache : Cache) given, (cache.make given).outcome session =
    ((cache.load given (environment.run steps)).mapError Failure.intake, session)
  /-- Without settings an operation does what it does with those that asking gives. -/
  untold : ∀ {cache : Cache} {α : Type} (operation : Operation cache α) settings,
    cache.read.result session = .ok settings →
    (operation.run none).result session = (operation.run (some settings)).result session
  /-- Reading, printing and generating always ask for the limits then. -/
  hidden : (∀ d, Step.looksUp .limits (.call (.readRule d) none) = true) ∧
    (∀ r, Step.looksUp .limits (.call (.printRule r) none) = true) ∧
    ∀ source start query, Step.looksUp .limits (.call (.generate source start query) none) = true
  /-- With settings it does the same in every session, and leaves only events there. -/
  told : ∀ {cache : Cache} {α : Type} (operation : Operation cache α) settings,
    ∃ answer events, ∀ other : Session,
      (operation.run (some settings)).outcome other = (answer, other.noting events)
  /-- Work without settings comes to the same wherever asking for what it needs gives the same. -/
  depends : ∀ {α : Type} {work : Work α} (other : Session), work.Unguided →
    (∀ cache : Cache, work.looksUp cache = true →
      cache.read.result session = cache.read.result other) →
    work.result session = work.result other
  /-- It fails where what it needs is not to be had. -/
  fails : ∀ {α : Type} {work : Work α} (cache : Cache) failure, work.Unguided →
    work.looksUp cache = true → cache.read.result session = .error failure →
    ∃ other, work.result session = .error other

/-- Settings are a snapshot of the environment from when they were first loaded, whatever the
steps of a session are. -/
theorem Session.isSnapshot_run (environment : Environment) (steps : List Step) :
    (Session.run environment steps).IsSnapshot environment steps := by
  constructor
  case environment_eq => exact Session.environment_run environment steps
  case kept_iff => exact fun _ _ => kept_run_iff
  case lasts =>
    intro cache i settings more origin stays j other
    refine ⟨fun another => another.unique (origin.append stays), ?_⟩
    rintro ⟨rfl, rfl⟩
    exact origin.append stays
  case forgets =>
    intro cache i settings origin
    have known := kept_run_iff.mpr ⟨i, origin⟩
    rw [Session.run_concat, Cache.kept_after_forget] at known
    cases known
  case read_iff =>
    intro cache settings
    rw [Cache.result_read_eq_ok, inForce_run_iff]
  case refused =>
    intro cache complaints none missing
    have unknown : cache.kept (Session.run environment steps) = Option.none := by
      rw [Option.eq_none_iff_forall_ne_some]
      rintro settings known
      obtain ⟨i, origin⟩ := kept_run_iff.mp known
      exact none i settings origin
    rw [Cache.outcome_read_of_not_kept unknown, Session.environment_run, missing]
  case make =>
    intro cache given
    rw [Cache.outcome_make, Session.environment_run]
  case untold =>
    intro cache α operation settings found
    exact operation.follows.result_of_inForce (Cache.result_read_eq_ok.mp found)
  case hidden =>
    exact ⟨Operation.looksUp_readRule, Operation.looksUp_printRule, Operation.looksUp_generate⟩
  case told => exact fun operation settings => operation.follows.told settings
  case depends =>
    intro α work other unguided alike
    obtain ⟨own, consults⟩ := unguided.consults
    exact consults.result_congr fun cache asks => Cache.result_read_inj.mp (alike cache asks)
  case fails =>
    intro α work cache failure unguided asks failed
    obtain ⟨own, consults⟩ := unguided.consults
    obtain ⟨complaints, missing, _⟩ := Cache.result_read_eq_error.mp failed
    exact consults.fails asks missing

/-- A variable that changes after a rule was read shows once the limits are forgotten. -/
example :
    let steps := [.call (.readRule .none) none,
      .setVariable "RRULE_MAX_OCCURRENCES".toList "25".toList, .read .limits]
    (Session.run [] steps).limits.map Limits.maxOccurrences = some 1000 ∧
      (Session.run [] (steps ++ [.forget, .read .limits])).limits.map Limits.maxOccurrences =
        some 25 := by
  decide

end Recurrence
