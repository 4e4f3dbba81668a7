import Recurrence.Proofs.Session.Resolution

namespace Recurrence

/-- The two kinds of settings that a session keeps once they are loaded. -/
inductive Cache where
  | limits | options
  deriving DecidableEq

namespace Session

/-- The session with further events in its journal. -/
def noting (session : Session) (events : List Journal.Event) : Session :=
  { session with events := events ++ session.events }

theorem noting_noting (session : Session) (first later : List Journal.Event) :
    (session.noting first).noting later = session.noting (later ++ first) := by
  unfold noting
  rw [List.append_assoc]

end Session

namespace Cache

/-- The settings of a kind. -/
abbrev Settings : Cache → Type
  | limits => Limits
  | options => Journal.Options

/-- The settings that a session keeps, if it has loaded them. -/
def kept : (cache : Cache) → Session → Option cache.Settings
  | limits, session => session.limits
  | options, session => session.options

/-- The session when it keeps the settings. -/
def keep : (cache : Cache) → cache.Settings → Session → Session
  | limits, settings, session => { session with limits := some settings }
  | options, settings, session => { session with options := some settings }

/-- Settings built from arguments and, for the rest, from an environment. -/
def load : (cache : Cache) → Entries → Environment → Intake cache.Settings
  | limits => Limits.load
  | options => Journal.Options.load

/-- Asks for the settings of the session. -/
def read : (cache : Cache) → Work cache.Settings
  | limits => Work.limits
  | options => Work.options

/-- The given settings, or those of the session. -/
def readOr (cache : Cache) : Option cache.Settings → Work cache.Settings
  | some given => pure given
  | none => cache.read

/-- Builds new settings, which nothing keeps. -/
def make (cache : Cache) (given : Entries) : Work cache.Settings := do
  Work.lift Failure.intake (cache.load given (← get).environment)

/-- What asking for the settings of a session gives: those that it keeps, or else those
that its environment gives now. -/
def inForce (cache : Cache) (session : Session) : Intake cache.Settings :=
  match cache.kept session with
  | some settings => .ok settings
  | none => cache.load [] session.environment

variable {cache : Cache} {session : Session} {settings : cache.Settings}

@[simp] theorem kept_keep : cache.kept (cache.keep settings session) = some settings := by
  cases cache <;> rfl

theorem kept_keep_of_ne {other : Cache} (differs : other ≠ cache) :
    other.kept (cache.keep settings session) = other.kept session := by
  cases cache <;> cases other
  · exact absurd rfl differs
  · rfl
  · rfl
  · exact absurd rfl differs

/-- Keeping what is kept changes nothing. -/
theorem keep_of_kept (known : cache.kept session = some settings) :
    cache.keep settings session = session := by
  obtain ⟨_, _, _, _⟩ := session
  cases cache <;> cases known <;> rfl

@[simp] theorem environment_keep :
    (cache.keep settings session).environment = session.environment := by
  cases cache <;> rfl

@[simp] theorem kept_noting (events : List Journal.Event) :
    cache.kept (session.noting events) = cache.kept session := by
  cases cache <;> rfl

@[simp] theorem inForce_noting (events : List Journal.Event) :
    cache.inForce (session.noting events) = cache.inForce session := by
  cases cache <;> rfl

theorem keep_noting (events : List Journal.Event) :
    cache.keep settings (session.noting events) = (cache.keep settings session).noting events := by
  cases cache <;> rfl

theorem inForce_of_kept (known : cache.kept session = some settings) :
    cache.inForce session = .ok settings := by
  unfold inForce
  rw [known]

theorem inForce_of_not_kept (unknown : cache.kept session = none) :
    cache.inForce session = cache.load [] session.environment := by
  unfold inForce
  rw [unknown]

/-- A session gives the settings that it keeps, or those that its environment gives. -/
theorem inForce_eq_ok_iff :
    cache.inForce session = .ok settings ↔ cache.kept session = some settings ∨
      cache.kept session = none ∧ cache.load [] session.environment = .ok settings := by
  cases known : cache.kept session with
  | none =>
    rw [inForce_of_not_kept known]
    exact ⟨fun loaded => .inr ⟨rfl, loaded⟩, fun found => (found.resolve_left nofun).2⟩
  | some own =>
    rw [inForce_of_kept known]
    constructor
    · rintro ⟨⟩
      exact .inl rfl
    · rintro (⟨⟨⟩⟩ | ⟨⟨⟩, _⟩)
      rfl

/-- An environment without variables gives the default settings. -/
theorem exists_load_nil (cache : Cache) : ∃ settings, cache.load [] [] = .ok settings := by
  cases cache <;> exact ⟨{}, rfl⟩

/-- Asking for settings looks first at what is kept, and loads them when nothing is. -/
theorem read_eq (cache : Cache) :
    cache.read = (do
      match cache.kept (← get) with
      | some settings => return settings
      | none =>
        let settings ← Work.lift Failure.intake (cache.load [] (← get).environment)
        modify (cache.keep settings)
        return settings) := by
  -- what is kept has to be known before either side goes on
  cases cache with
  | limits =>
    refine congrArg (get >>= ·) (funext fun session => ?_)
    dsimp only [kept]
    cases session.limits <;> rfl
  | options =>
    refine congrArg (get >>= ·) (funext fun session => ?_)
    dsimp only [kept]
    cases session.options <;> rfl

theorem outcome_read_of_kept (known : cache.kept session = some settings) :
    cache.read.outcome session = (.ok settings, session) := by
  have begun : (get : Work Session).outcome session = (.ok session, session) := rfl
  rw [read_eq, Work.outcome_bind begun, known]
  rfl

theorem outcome_read_of_not_kept (unknown : cache.kept session = none) :
    cache.read.outcome session =
      match cache.load [] session.environment with
      | .ok settings => (.ok settings, cache.keep settings session)
      | .error complaints => (.error (.intake complaints), session) := by
  have begun : (get : Work Session).outcome session = (.ok session, session) := rfl
  rw [read_eq, Work.outcome_bind begun, unknown]
  dsimp only
  rw [Work.outcome_bind begun]
  cases cache.load [] session.environment <;> rfl

theorem outcome_read (session : Session) :
    cache.read.outcome session =
      match cache.inForce session with
      | .ok settings => (.ok settings, cache.keep settings session)
      | .error complaints => (.error (.intake complaints), session) := by
  cases known : cache.kept session with
  | none => rw [inForce_of_not_kept known, outcome_read_of_not_kept known]
  | some settings =>
    rw [inForce_of_kept known, outcome_read_of_kept known]
    dsimp only
    rw [keep_of_kept known]

theorem result_read (session : Session) :
    cache.read.result session = (cache.inForce session).mapError Failure.intake := by
  unfold Work.result
  rw [outcome_read]
  cases cache.inForce session <;> rfl

theorem result_read_inj {other : Session} :
    cache.read.result session = cache.read.result other ↔
      cache.inForce session = cache.inForce other := by
  rw [result_read, result_read]
  exact (Outcome.mapError_injective fun _ _ => Failure.intake.inj).eq_iff

theorem result_read_eq_ok :
    cache.read.result session = .ok settings ↔ cache.inForce session = .ok settings := by
  rw [result_read, Outcome.mapError_eq_ok]

theorem result_read_eq_error {failure : Failure} :
    cache.read.result session = .error failure ↔
      ∃ complaints, cache.inForce session = .error complaints ∧ .intake complaints = failure := by
  rw [result_read, Outcome.mapError_eq_error]

theorem outcome_make (given : Entries) (session : Session) :
    (cache.make given).outcome session =
      ((cache.load given session.environment).mapError Failure.intake, session) := by
  have begun : (get : Work Session).outcome session = (.ok session, session) := rfl
  unfold make
  rw [Work.outcome_bind begun]
  cases cache.load given session.environment <;> rfl

end Cache

end Recurrence
